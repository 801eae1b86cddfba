import TradeServers.Bytes
import TradeServers.Library.DecimalText
import TradeServers.Library.Execution
import TradeServers.Library.FirstWins

/-!
# Merging the local and the server's document

`JsonTrans::mergeJson` of the client puts the records of two JSON arrays into the map `mergeMap_`,
by their ids, and writes what the map holds. The map is a member that no call clears, so records of
earlier merges come back: `merge_iff` says when they do no harm.

jsoncpp is a parameter. A call that throws ends a run.
-/

set_option autoImplicit false
set_option relaxedAutoImplicit false

namespace TradeServers.ClientDelimiter

open Execution FirstWins Std

/-! ### jsoncpp -/

/-- What the client uses of jsoncpp. `items` is what `size` and `operator[]` go through, `array`
makes an array by `append`, and `none` stands for an exception but for the failure of `parse`. -/
structure JsonCpp where
  Value : Type
  parse : Bytes → Option Value
  toStyledString : Value → Bytes
  ofString : Bytes → Value
  items : Value → Option (List Value)
  get : Value → Bytes → Value → Option Value
  asInt : Value → Option ℤ
  array : List Value → Value

namespace JsonCpp

variable (json : JsonCpp)

/-- `value.get("key1", "ASCII").asInt()`. -/
def key1 (value : json.Value) : Option ℤ :=
  (json.get value (ascii "key1") (json.ofString (ascii "ASCII"))).bind json.asInt

/-- A record has an id. -/
def IsRecord (value : json.Value) : Prop := ∃ id, json.key1 value = some id

/-- `parse` and `toStyledString` are inverse on records and on arrays of them. -/
structure Inverse : Prop where
  items_array : ∀ values, json.items (json.array values) = some values
  parse_record : ∀ value, json.IsRecord value →
    json.parse (json.toStyledString value) = some value
  parse_array : ∀ values, values ≠ [] → (∀ value ∈ values, json.IsRecord value) →
    json.parse (json.toStyledString (json.array values)) = some (json.array values)

/-- The first record of an array with an id. -/
def firstWith (id : ℤ) (values : List json.Value) : Option json.Value :=
  values.find? fun value ↦ json.key1 value = some id

/-- The record that a merge has to take for an id: the first one in the local array, or else the
first one in the server's. -/
def wanted (localArr mysqlArr : List json.Value) (id : ℤ) : Option json.Value :=
  (json.firstWith id localArr).or (json.firstWith id mysqlArr)

/-- An array has the wanted records, ordered by their ids, and no others. -/
structure IsMerge (localArr mysqlArr result : List json.Value) : Prop where
  increasing : result.Pairwise fun first second ↦
    ∀ id ∈ json.key1 first, ∀ other ∈ json.key1 second, id < other
  mem_iff : ∀ value, value ∈ result ↔
    ∃ id, json.key1 value = some id ∧ json.wanted localArr mysqlArr id = some value

end JsonCpp

/-! ### The object -/

/-- The members `localStr_`, `mysqlStr_` and `mergeMap_` of a `JsonTrans`. -/
structure JsonTrans where
  localStr : Bytes
  mysqlStr : Bytes
  mergeMap : TreeMap ℤ Bytes

/-- jsoncpp throws. -/
inductive JsonFault
  | exception
deriving DecidableEq

namespace JsonTrans

/-- The constructor. -/
def initial : JsonTrans := ⟨[], [], ∅⟩

/-- `JsonTrans::setLocalStr`. -/
def setLocalStr (object : JsonTrans) (localStr : Bytes) : JsonTrans := { object with localStr }

/-- `JsonTrans::setMysqlStr`. -/
def setMysqlStr (object : JsonTrans) (mysqlStr : Bytes) : JsonTrans := { object with mysqlStr }

variable (json : JsonCpp)

/-- `JsonTrans::inputJson`, given the content of `input.json` if that can be opened. -/
def inputJson (object : JsonTrans) (input : Option Bytes) : JsonTrans :=
  match input.bind json.parse with
  | none => object
  | some root => object.setLocalStr (json.toStyledString root)

/-- The loop of `mergeJson` over an array. -/
def insertItems : TreeMap ℤ Bytes → List json.Value → Except JsonFault (TreeMap ℤ Bytes)
  | mergeMap, [] => .ok mergeMap
  | mergeMap, value :: values =>
    match json.key1 value with
    | none => .error .exception
    | some id => insertItems (mergeMap.insertIfNew id (json.toStyledString value)) values

/-- The two loops of `mergeJson`, over the documents `root1` and `root2`. -/
def insertRoots (mergeMap : TreeMap ℤ Bytes) (root1 root2 : json.Value) :
    Except JsonFault (TreeMap ℤ Bytes) :=
  match json.items root1, json.items root2 with
  | some values1, some values2 => do insertItems json (← insertItems json mergeMap values1) values2
  | _, _ => .error .exception

/-- `JsonTrans::mergeJson` without the file that it writes in the end: what it leaves in `str`, and
the object. -/
def mergeJson (object : JsonTrans) (str : Bytes) : Except JsonFault (Bytes × JsonTrans) :=
  match json.parse object.localStr, json.parse object.mysqlStr with
  | some root1, some root2 => do
    let mergeMap ← insertRoots json object.mergeMap root1 root2
    let arr := json.array (mergeMap.toList.filterMap fun item ↦ json.parse item.2)
    .ok (json.toStyledString arr, { object with mergeMap })
  | none, some _ => .ok (object.mysqlStr, object)
  | _, none => .ok (str, object)

end JsonTrans

/-- The calls on an object that matter to its members. -/
inductive JsonCall
  | setLocalStr (localStr : Bytes)
  | setMysqlStr (mysqlStr : Bytes)
  | inputJson (input : Option Bytes)
  | mergeJson (str : Bytes)

/-- The effect of a call. -/
def jsonStep (json : JsonCpp) (object : JsonTrans) : JsonCall → Except JsonFault JsonTrans
  | .setLocalStr localStr => .ok (object.setLocalStr localStr)
  | .setMysqlStr mysqlStr => .ok (object.setMysqlStr mysqlStr)
  | .inputJson input => .ok (object.inputJson json input)
  | .mergeJson str => (object.mergeJson json str).map Prod.snd

section Merging

variable {json : JsonCpp} {mergeMap : TreeMap ℤ Bytes} {values : List json.Value}

/-! ### What the map holds -/

/-- The entries that records make. -/
def entriesOf (json : JsonCpp) (values : List json.Value) : List (ℤ × Bytes) :=
  values.filterMap fun value ↦ (json.key1 value).map fun id ↦ (id, json.toStyledString value)

theorem entriesOf_cons {value : json.Value} {id : ℤ} (hid : json.key1 value = some id) :
    entriesOf json (value :: values) =
      (id, json.toStyledString value) :: entriesOf json values := by
  apply List.filterMap_cons_some
  rw [hid]
  rfl

theorem entriesOf_cons_none {value : json.Value} (hid : json.key1 value = none) :
    entriesOf json (value :: values) = entriesOf json values := by
  apply List.filterMap_cons_none
  rw [hid]
  rfl

/-- The loop over an array of records inserts their entries, and throws on anything else. -/
theorem insertItems_eq_ok_iff {next : TreeMap ℤ Bytes} :
    JsonTrans.insertItems json mergeMap values = .ok next ↔
      (∀ value ∈ values, json.IsRecord value) ∧
        insertAll mergeMap (entriesOf json values) = next := by
  induction values generalizing mergeMap with
  | nil =>
    constructor
    · exact fun hinsert ↦ ⟨fun _ hvalue ↦ absurd hvalue List.not_mem_nil, Except.ok.inj hinsert⟩
    · exact fun hboth ↦ congrArg _ hboth.2
  | cons value values ih =>
    unfold JsonTrans.insertItems
    cases hid : json.key1 value with
    | none =>
      refine ⟨nofun, fun hboth ↦ ?_⟩
      obtain ⟨id, hrecord⟩ := hboth.1 value List.mem_cons_self
      rw [hid] at hrecord
      cases hrecord
    | some id =>
      have hrecord : json.IsRecord value := ⟨id, hid⟩
      dsimp only
      rw [ih, List.forall_mem_cons, and_iff_right hrecord, entriesOf_cons hid, insertAll_cons]

/-- The entry of an id is made by the first record that has it. -/
theorem lookup_entriesOf (id : ℤ) :
    (entriesOf json values).lookup id = (json.firstWith id values).map json.toStyledString := by
  unfold JsonCpp.firstWith
  induction values with
  | nil => rfl
  | cons value values ih =>
    cases hid : json.key1 value with
    | none =>
      rw [entriesOf_cons_none hid, ih, List.find?_cons_of_neg (by simp [hid])]
    | some other =>
      rw [entriesOf_cons hid]
      by_cases hsame : other = id
      · subst hsame
        rw [List.lookup_cons_self, List.find?_cons_of_pos (by simp [hid])]
        rfl
      · have hbeq : (id == other) = false := beq_eq_false_iff_ne.mpr (Ne.symm hsame)
        rw [List.find?_cons_of_neg (by simp [hid, hsame]), ← ih]
        rw [List.lookup_cons, hbeq]

theorem isSome_firstWith {id : ℤ} {value : json.Value} (hvalue : value ∈ values)
    (hid : json.key1 value = some id) : (json.firstWith id values).isSome = true :=
  List.find?_isSome.mpr ⟨value, hvalue, decide_eq_true hid⟩

theorem key1_of_firstWith {id : ℤ} {value : json.Value}
    (hfirst : json.firstWith id values = some value) : json.key1 value = some id := by
  unfold JsonCpp.firstWith at hfirst
  simpa using List.find?_some hfirst

theorem key1_of_wanted {localArr mysqlArr : List json.Value} {id : ℤ} {value : json.Value}
    (hwanted : json.wanted localArr mysqlArr id = some value) : json.key1 value = some id := by
  rcases Option.or_eq_some_iff.mp hwanted with hlocal | ⟨-, hmysql⟩
  · exact key1_of_firstWith hlocal
  · exact key1_of_firstWith hmysql

/-- Every text of the map is that of a record with the id it is kept under. -/
def Known (json : JsonCpp) (mergeMap : TreeMap ℤ Bytes) : Prop :=
  ∀ id text, mergeMap[id]? = some text →
    ∃ value, json.key1 value = some id ∧ json.toStyledString value = text

theorem known_insertAll (hknown : Known json mergeMap) :
    Known json (insertAll mergeMap (entriesOf json values)) := by
  intro id text htext
  rw [getElem?_insertAll, lookup_entriesOf] at htext
  rcases Option.or_eq_some_iff.mp htext with hbefore | ⟨-, hnew⟩
  · exact hknown id text hbefore
  · obtain ⟨value, hfirst, rfl⟩ := Option.map_eq_some_iff.mp hnew
    exact ⟨value, key1_of_firstWith hfirst, rfl⟩

/-- The array that is made of the map. -/
def listed (json : JsonCpp) (mergeMap : TreeMap ℤ Bytes) : List json.Value :=
  mergeMap.toList.filterMap fun item ↦ json.parse item.2

/-- The array has the records whose texts the map holds. -/
theorem mem_listed_iff (hinverse : json.Inverse) (hknown : Known json mergeMap)
    {value : json.Value} : value ∈ listed json mergeMap ↔
      ∃ id, json.key1 value = some id ∧ mergeMap[id]? = some (json.toStyledString value) := by
  unfold listed
  rw [List.mem_filterMap]
  constructor
  · rintro ⟨⟨id, text⟩, hitem, hparse⟩
    have htext := TreeMap.mem_toList_iff_getElem?_eq_some.mp hitem
    obtain ⟨record, hid, rfl⟩ := hknown id text htext
    rw [hinverse.parse_record record ⟨id, hid⟩] at hparse
    obtain rfl := Option.some.inj hparse
    exact ⟨id, hid, htext⟩
  · rintro ⟨id, hid, htext⟩
    exact ⟨(id, json.toStyledString value), TreeMap.mem_toList_iff_getElem?_eq_some.mpr htext,
      hinverse.parse_record value ⟨id, hid⟩⟩

/-- It is ordered by the ids. -/
theorem increasing_listed (hinverse : json.Inverse) (hknown : Known json mergeMap) :
    (listed json mergeMap).Pairwise fun first second ↦
      ∀ id ∈ json.key1 first, ∀ other ∈ json.key1 second, id < other := by
  have hread : ∀ item ∈ mergeMap.toList, ∀ value ∈ json.parse item.2,
      json.key1 value = some item.1 := by
    rintro ⟨id, text⟩ hitem value hvalue
    obtain ⟨record, hid, rfl⟩ := hknown id text (TreeMap.mem_toList_iff_getElem?_eq_some.mp hitem)
    dsimp only at hvalue
    rw [hinverse.parse_record record ⟨id, hid⟩] at hvalue
    obtain rfl := Option.some.inj hvalue
    exact hid
  apply pairwise_filterMap_toList
  intro first hfirst second hsecond hlt value hvalue other hother
  rw [hread first hfirst value hvalue, hread second hsecond other hother]
  rintro id hid _ hsecond
  obtain rfl := Option.some.inj hid
  obtain rfl := Option.some.inj hsecond
  exact compare_lt_iff_lt.mp hlt

/-! ### Calls -/

variable {object next : JsonTrans} {localArr mysqlArr : List json.Value}

/-- The map behind a merge of two arrays. -/
def mergedMap (json : JsonCpp) (mergeMap : TreeMap ℤ Bytes) (localArr mysqlArr : List json.Value) :
    TreeMap ℤ Bytes :=
  insertAll (insertAll mergeMap (entriesOf json localArr)) (entriesOf json mysqlArr)

theorem insertRoots_eq_ok_iff {root1 root2 : json.Value} {after : TreeMap ℤ Bytes} :
    JsonTrans.insertRoots json mergeMap root1 root2 = .ok after ↔ ∃ localArr mysqlArr,
      (json.items root1 = some localArr ∧ json.items root2 = some mysqlArr) ∧
        ((∀ value ∈ localArr, json.IsRecord value) ∧ ∀ value ∈ mysqlArr, json.IsRecord value) ∧
          mergedMap json mergeMap localArr mysqlArr = after := by
  unfold JsonTrans.insertRoots
  constructor
  · intro hinsert
    split at hinsert
    · rename_i values1 values2 hitems1 hitems2
      obtain ⟨middle, hfirst, hsecond⟩ := bind_eq_ok_iff.mp hinsert
      obtain ⟨hrecords1, rfl⟩ := insertItems_eq_ok_iff.mp hfirst
      obtain ⟨hrecords2, hafter⟩ := insertItems_eq_ok_iff.mp hsecond
      exact ⟨values1, values2, ⟨hitems1, hitems2⟩, ⟨hrecords1, hrecords2⟩, hafter⟩
    · cases hinsert
  · rintro ⟨values1, values2, ⟨hitems1, hitems2⟩, ⟨hrecords1, hrecords2⟩, hafter⟩
    rw [hitems1, hitems2]
    exact bind_eq_ok_iff.mpr ⟨_, insertItems_eq_ok_iff.mpr ⟨hrecords1, rfl⟩,
      insertItems_eq_ok_iff.mpr ⟨hrecords2, hafter⟩⟩

/-- A merge of two documents that parse. -/
theorem mergeJson_eq_ok_iff {root1 root2 : json.Value} {str : Bytes} {result : Bytes × JsonTrans}
    (hroot1 : json.parse object.localStr = some root1)
    (hroot2 : json.parse object.mysqlStr = some root2) :
    object.mergeJson json str = .ok result ↔ ∃ after,
      JsonTrans.insertRoots json object.mergeMap root1 root2 = .ok after ∧
        (json.toStyledString (json.array (listed json after)), { object with mergeMap := after }) =
          result := by
  unfold JsonTrans.mergeJson
  rw [hroot1, hroot2]
  dsimp only
  rw [bind_eq_ok_iff]
  exact exists_congr fun after ↦ and_congr_right fun _ ↦ ⟨Except.ok.inj, congrArg _⟩

/-- What the map knows it knows after every call. -/
theorem known_of_step {call : JsonCall} (hknown : Known json object.mergeMap)
    (hstep : jsonStep json object call = .ok next) : Known json next.mergeMap := by
  cases call with
  | setLocalStr localStr => exact Except.ok.inj hstep ▸ hknown
  | setMysqlStr mysqlStr => exact Except.ok.inj hstep ▸ hknown
  | inputJson input =>
    obtain rfl := Except.ok.inj hstep
    unfold JsonTrans.inputJson
    split
    · exact hknown
    · exact hknown
  | mergeJson str =>
    change (object.mergeJson json str).map Prod.snd = .ok next at hstep
    cases hroot2 : json.parse object.mysqlStr with
    | none =>
      unfold JsonTrans.mergeJson at hstep
      rw [hroot2] at hstep
      split at hstep
      · contradiction
      · contradiction
      · exact Except.ok.inj hstep ▸ hknown
    | some root2 =>
      cases hroot1 : json.parse object.localStr with
      | none =>
        unfold JsonTrans.mergeJson at hstep
        rw [hroot1, hroot2] at hstep
        exact Except.ok.inj hstep ▸ hknown
      | some root1 =>
        cases hmerge : object.mergeJson json str with
        | error fault =>
          rw [hmerge] at hstep
          cases hstep
        | ok result =>
          rw [hmerge] at hstep
          obtain ⟨after, hafter, rfl⟩ := (mergeJson_eq_ok_iff hroot1 hroot2).mp hmerge
          obtain ⟨localArr, mysqlArr, -, -, rfl⟩ := insertRoots_eq_ok_iff.mp hafter
          obtain rfl := Except.ok.inj hstep
          exact known_insertAll (known_insertAll hknown)

/-- The map behind a merge has the texts it had before, and those of the wanted records for the
other ids. -/
theorem getElem?_mergedMap (id : ℤ) : (mergedMap json mergeMap localArr mysqlArr)[id]? =
    mergeMap[id]?.or ((json.wanted localArr mysqlArr id).map json.toStyledString) := by
  unfold mergedMap JsonCpp.wanted
  rw [getElem?_insertAll, getElem?_insertAll, lookup_entriesOf, lookup_entriesOf, Option.or_assoc,
    Option.map_or]

/-- What is listed is the merge when the map had nothing but texts of wanted records. -/
theorem isMerge_listed_iff (hinverse : json.Inverse) (hknown : Known json mergeMap) :
    json.IsMerge localArr mysqlArr (listed json (mergedMap json mergeMap localArr mysqlArr)) ↔
      ∀ id text, mergeMap[id]? = some text →
        (json.wanted localArr mysqlArr id).map json.toStyledString = some text := by
  have hmerged : Known json (mergedMap json mergeMap localArr mysqlArr) :=
    known_insertAll (known_insertAll hknown)
  constructor
  · intro hmerge id text htext
    obtain ⟨value, hid, rfl⟩ := hknown id text htext
    have hlisted : value ∈ listed json (mergedMap json mergeMap localArr mysqlArr) := by
      refine (mem_listed_iff hinverse hmerged).mpr ⟨id, hid, ?_⟩
      rw [getElem?_mergedMap, htext]
      rfl
    obtain ⟨other, hother, hwanted⟩ := (hmerge.mem_iff value).mp hlisted
    obtain rfl := Option.some.inj (hid.symm.trans hother)
    rw [hwanted]
    rfl
  · intro hwanted
    refine ⟨increasing_listed hinverse hmerged, fun value ↦ ?_⟩
    rw [mem_listed_iff hinverse hmerged]
    refine exists_congr fun id ↦ and_congr_right fun hid ↦ ?_
    have hvalue : (mergedMap json mergeMap localArr mysqlArr)[id]? =
        (json.wanted localArr mysqlArr id).map json.toStyledString := by
      rw [getElem?_mergedMap]
      cases htext : mergeMap[id]? with
      | none => rfl
      | some text => exact (hwanted id text htext).symm
    rw [hvalue, Option.map_eq_some_iff]
    constructor
    · rintro ⟨other, hother, htext⟩
      have hparse := hinverse.parse_record other ⟨id, key1_of_wanted hother⟩
      rw [htext, hinverse.parse_record value ⟨id, hid⟩] at hparse
      exact Option.some.inj hparse ▸ hother
    · exact fun hvalue ↦ ⟨value, hvalue, rfl⟩

/-- The merge of two arrays that are not both empty is not empty. -/
theorem listed_ne_nil (hinverse : json.Inverse) (hknown : Known json mergeMap)
    (hlocalArr : ∀ value ∈ localArr, json.IsRecord value)
    (hmysqlArr : ∀ value ∈ mysqlArr, json.IsRecord value) (hne : localArr ≠ [] ∨ mysqlArr ≠ []) :
    listed json (mergedMap json mergeMap localArr mysqlArr) ≠ [] := by
  have hmerged : Known json (mergedMap json mergeMap localArr mysqlArr) :=
    known_insertAll (known_insertAll hknown)
  have hwanted : ∃ id, (json.wanted localArr mysqlArr id).isSome = true := by
    unfold JsonCpp.wanted
    rcases hne with hne | hne
    · obtain ⟨value, hvalue⟩ := List.exists_mem_of_ne_nil _ hne
      obtain ⟨id, hid⟩ := hlocalArr value hvalue
      exact ⟨id, by rw [Option.isSome_or, isSome_firstWith hvalue hid, Bool.true_or]⟩
    · obtain ⟨value, hvalue⟩ := List.exists_mem_of_ne_nil _ hne
      obtain ⟨id, hid⟩ := hmysqlArr value hvalue
      exact ⟨id, by rw [Option.isSome_or, isSome_firstWith hvalue hid, Bool.or_true]⟩
  obtain ⟨id, hwanted⟩ := hwanted
  obtain ⟨value, hvalue⟩ := Option.isSome_iff_exists.mp hwanted
  have htext : ∃ text, (mergedMap json mergeMap localArr mysqlArr)[id]? = some text := by
    rw [getElem?_mergedMap, hvalue]
    cases mergeMap[id]? with
    | none => exact ⟨_, rfl⟩
    | some text => exact ⟨text, rfl⟩
  obtain ⟨text, htext⟩ := htext
  obtain ⟨record, hid, rfl⟩ := hmerged id text htext
  exact List.ne_nil_of_mem ((mem_listed_iff hinverse hmerged).mpr ⟨id, hid, htext⟩)

/-- A merge of two arrays of records into a map that knows its texts. -/
theorem mergeJson_isMerge_iff (object : JsonTrans) (hinverse : json.Inverse)
    (hknown : Known json object.mergeMap)
    (hlocal : (json.parse object.localStr).bind json.items = some localArr)
    (hmysql : (json.parse object.mysqlStr).bind json.items = some mysqlArr)
    (hlocalArr : ∀ value ∈ localArr, json.IsRecord value)
    (hmysqlArr : ∀ value ∈ mysqlArr, json.IsRecord value)
    (hne : localArr ≠ [] ∨ mysqlArr ≠ []) (str : Bytes) :
    (∃ merged next, object.mergeJson json str = .ok (merged, next) ∧
        ∃ result, json.parse merged = some (json.array result) ∧
          json.IsMerge localArr mysqlArr result) ↔
      ∀ id text, object.mergeMap[id]? = some text →
        (json.wanted localArr mysqlArr id).map json.toStyledString = some text := by
  obtain ⟨root1, hroot1, hitems1⟩ := Option.bind_eq_some_iff.mp hlocal
  obtain ⟨root2, hroot2, hitems2⟩ := Option.bind_eq_some_iff.mp hmysql
  have hmerged : Known json (mergedMap json object.mergeMap localArr mysqlArr) :=
    known_insertAll (known_insertAll hknown)
  have hparse := hinverse.parse_array
    (listed json (mergedMap json object.mergeMap localArr mysqlArr))
    (listed_ne_nil hinverse hknown hlocalArr hmysqlArr hne) (fun value hvalue ↦ by
      obtain ⟨id, hid, -⟩ := (mem_listed_iff hinverse hmerged).mp hvalue
      exact ⟨id, hid⟩)
  have hinsert : JsonTrans.insertRoots json object.mergeMap root1 root2 =
      .ok (mergedMap json object.mergeMap localArr mysqlArr) :=
    insertRoots_eq_ok_iff.mpr
      ⟨localArr, mysqlArr, ⟨hitems1, hitems2⟩, ⟨hlocalArr, hmysqlArr⟩, rfl⟩
  rw [← isMerge_listed_iff hinverse hknown]
  constructor
  · rintro ⟨merged, next, hmerge, result, hresult, his⟩
    obtain ⟨after, hafter, hpair⟩ := (mergeJson_eq_ok_iff hroot1 hroot2).mp hmerge
    obtain rfl := Except.ok.inj (hinsert.symm.trans hafter)
    obtain ⟨rfl, -⟩ := Prod.mk.inj hpair
    have hsame := congrArg json.items (Option.some.inj (hparse.symm.trans hresult))
    rw [hinverse.items_array, hinverse.items_array] at hsame
    exact Option.some.inj hsame ▸ his
  · intro his
    exact ⟨_, _, (mergeJson_eq_ok_iff hroot1 hroot2).mpr ⟨_, hinsert, rfl⟩, _, hparse, his⟩

theorem known_of_run {history : List JsonCall}
    (hrun : run (jsonStep json) .initial history = .ok object) : Known json object.mergeMap :=
  run_invariant (fun _ _ _ ↦ known_of_step)
    (fun id text htext ↦ absurd htext (by simp [JsonTrans.initial])) hrun

/-- Behind any earlier calls, a merge of two arrays of records leaves the array that it is meant to
leave when every text that the map has from earlier merges is that of the record that is wanted for
its id, and only then. -/
theorem merge_iff (json : JsonCpp) (hinverse : json.Inverse) {history : List JsonCall}
    {object : JsonTrans} (hrun : run (jsonStep json) .initial history = .ok object)
    {localStr mysqlStr : Bytes} {localArr mysqlArr : List json.Value}
    (hlocal : (json.parse localStr).bind json.items = some localArr)
    (hmysql : (json.parse mysqlStr).bind json.items = some mysqlArr)
    (hlocalArr : ∀ value ∈ localArr, json.IsRecord value)
    (hmysqlArr : ∀ value ∈ mysqlArr, json.IsRecord value)
    (hne : localArr ≠ [] ∨ mysqlArr ≠ []) (str : Bytes) :
    (∃ merged next, ((object.setLocalStr localStr).setMysqlStr mysqlStr).mergeJson json str =
        .ok (merged, next) ∧ ∃ result, json.parse merged = some (json.array result) ∧
          json.IsMerge localArr mysqlArr result) ↔
      ∀ id text, object.mergeMap[id]? = some text →
        (json.wanted localArr mysqlArr id).map json.toStyledString = some text :=
  have hknown : Known json object.mergeMap := known_of_run hrun
  mergeJson_isMerge_iff ((object.setLocalStr localStr).setMysqlStr mysqlStr) hinverse hknown hlocal
    hmysql hlocalArr hmysqlArr hne str

end Merging

/-! ### An instance -/

/-- Documents whose records are objects with an id and nothing else. -/
inductive Document
  | int (number : ℤ)
  | string (text : Bytes)
  | record (id : ℤ)
  | array (items : List Document)

namespace Document

open DecimalText

/-- The id of a record. -/
def id : Document → Option ℤ
  | record id => some id
  | _ => none

/-- A record in lines with an indentation. -/
def recordText (indent : Bytes) (id : ℤ) : Bytes :=
  indent ++ ascii "\x7b\n" ++ indent ++ ascii "   \"key1\" : " ++ intText id ++ ascii "\n" ++
    indent ++ ascii "\x7d"

/-- The text of a document in lines. -/
def toStyledString : Document → Bytes
  | int number => intText number ++ ascii "\n"
  | string text => ascii "\"" ++ text ++ ascii "\"\n"
  | record id => recordText [] id ++ ascii "\n"
  | array items =>
    ascii "[\n" ++ List.intercalate (ascii ",\n")
      ((items.filterMap Document.id).map (recordText (ascii "   "))) ++ ascii "\n]\n"

/-- A text without blanks and line ends. -/
def compact (text : Bytes) : Bytes := text.filter fun byte ↦ byte ≠ 32 ∧ byte ≠ 10

/-- The record of a text like `{"key1":2}`. -/
def readRecord (text : Bytes) : Document := record (readInt (text.drop 8).dropLast)

/-- The document of a text. -/
def parse (text : Bytes) : Option Document :=
  match compact text with
  | 91 :: body => some (array ((body.dropLast.splitOn 44).map readRecord))
  | 123 :: body => some (readRecord (123 :: body))
  | _ => none

theorem mem_intText {number : ℤ} {byte : UInt8} (hbyte : byte ∈ intText number) :
    45 ≤ byte.toNat := by
  unfold intText at hbyte
  split at hbyte
  · rcases List.mem_cons.mp hbyte with rfl | hdigit
    · decide
    · exact (by decide : 45 ≤ 48).trans (mem_natText hdigit).1
  · exact (by decide : 45 ≤ 48).trans (mem_natText hbyte).1

/-- A record in one line. -/
def recordLine (id : ℤ) : Bytes := ascii "\x7b\"key1\":" ++ intText id ++ ascii "\x7d"

theorem readRecord_recordLine (id : ℤ) : readRecord (recordLine id) = record id := by
  have hhead : (recordLine id).drop 8 = intText id ++ ascii "\x7d" := by
    unfold recordLine
    rw [List.append_assoc]
    exact List.drop_left' (by decide)
  unfold readRecord
  rw [hhead, show ascii "\x7d" = [125] from rfl, List.dropLast_concat, readInt_intText]

theorem compact_intText (number : ℤ) : compact (intText number) = intText number := by
  refine List.filter_eq_self.mpr fun byte hbyte ↦ ?_
  have hlow := mem_intText hbyte
  simp only [decide_eq_true_eq]
  constructor <;> rintro rfl <;> exact absurd hlow (by decide)

theorem compact_append (first second : Bytes) :
    compact (first ++ second) = compact first ++ compact second := List.filter_append ..

theorem compact_recordText {indent : Bytes} (hindent : compact indent = []) (id : ℤ) :
    compact (recordText indent id) = recordLine id := by
  unfold recordText recordLine
  rw [compact_append, compact_append, compact_append, compact_append, compact_append,
    compact_append, compact_append, hindent, compact_intText,
    show compact (ascii "\x7b\n") = ascii "\x7b" by decide,
    show compact (ascii "   \"key1\" : ") = ascii "\"key1\":" by decide,
    show compact (ascii "\n") = [] by decide, show compact (ascii "\x7d") = ascii "\x7d" by decide]
  simp only [List.nil_append, List.append_nil]
  rfl

/-- The texts of several records in one line, between the brackets of an array. -/
theorem compact_recordTexts (ids : List ℤ) :
    compact (List.intercalate (ascii ",\n") (ids.map (recordText (ascii "   ")))) =
      List.intercalate [44] (ids.map recordLine) := by
  have hrecord := compact_recordText (show compact (ascii "   ") = [] by decide)
  induction ids with
  | nil => rfl
  | cons id ids ih =>
    cases ids with
    | nil =>
      rw [List.map_singleton, List.map_singleton, List.intercalate_singleton,
        List.intercalate_singleton, hrecord]
    | cons next ids =>
      rw [List.map_cons, List.map_cons, List.intercalate_cons_cons, ← List.map_cons,
        compact_append, compact_append, ih, hrecord, List.map_cons, List.map_cons, List.map_cons,
        List.intercalate_cons_cons, show compact (ascii ",\n") = [44] by decide]

/-- The parser gives back records. -/
theorem parse_record (id : ℤ) : parse (toStyledString (record id)) = some (record id) := by
  unfold parse toStyledString
  rw [compact_append, compact_recordText (by decide), show compact (ascii "\n") = [] by decide,
    List.append_nil]
  exact congrArg some (readRecord_recordLine id)

theorem parse_array {ids : List ℤ} (hne : ids ≠ []) :
    parse (toStyledString (array (ids.map record))) = some (array (ids.map record)) := by
  have hids : (ids.map record).filterMap Document.id = ids := by
    rw [List.filterMap_map]
    exact List.filterMap_some
  have hcompact : compact (toStyledString (array (ids.map record))) =
      91 :: (List.intercalate [44] (ids.map recordLine) ++ [93]) := by
    change compact (ascii "[\n" ++ List.intercalate (ascii ",\n")
      (((ids.map record).filterMap Document.id).map (recordText (ascii "   "))) ++
        ascii "\n]\n") = _
    rw [hids, compact_append, compact_append, compact_recordTexts,
      show compact (ascii "[\n") = [91] by decide, show compact (ascii "\n]\n") = [93] by decide]
    rfl
  have hline : ∀ line ∈ ids.map recordLine, 44 ∉ line := by
    intro line hline hcomma
    obtain ⟨id, -, rfl⟩ := List.mem_map.mp hline
    rcases List.mem_append.mp hcomma with hhead | hlast
    · rcases List.mem_append.mp hhead with hname | hnumber
      · exact absurd hname (by decide)
      · exact absurd (mem_intText hnumber) (by decide)
    · exact absurd hlast (by decide)
  have hread : (ids.map recordLine).map readRecord = ids.map record := by
    rw [List.map_map]
    exact List.map_congr_left fun id _ ↦ readRecord_recordLine id
  unfold parse
  rw [hcompact]
  change some (array (((List.intercalate [44] (ids.map recordLine) ++ [93]).dropLast.splitOn
    44).map readRecord)) = _
  rw [List.dropLast_concat, List.splitOn_intercalate 44 hline (by simpa using hne), hread]

/-- `value.get(name, default)`, which throws unless the value is an object. -/
def get (value : Document) (name : Bytes) (default : Document) : Option Document :=
  match value with
  | record id => some (if name = ascii "key1" then int id else default)
  | _ => none

/-- `value.asInt()`. -/
def asInt : Document → Option ℤ
  | int number => some number
  | _ => none

/-- The elements of an array; a scalar has none, and `operator[]` throws on an object. -/
def items : Document → Option (List Document)
  | array items => some items
  | record _ => none
  | _ => some []

/-- The jsoncpp of these documents. -/
def json : JsonCpp where
  Value := Document
  parse := parse
  toStyledString := toStyledString
  ofString := string
  items := items
  get := get
  asInt := asInt
  array := array

theorem isRecord_iff {value : Document} : json.IsRecord value ↔ ∃ id, value = record id := by
  constructor
  · rintro ⟨id, hid⟩
    cases value with
    | record other => exact ⟨other, rfl⟩
    | int number => cases hid
    | string text => cases hid
    | array items => cases hid
  · rintro ⟨id, rfl⟩
    exact ⟨id, rfl⟩

theorem json_inverse : json.Inverse where
  items_array := fun _ ↦ rfl
  parse_record := by
    intro value hvalue
    obtain ⟨id, rfl⟩ := isRecord_iff.mp hvalue
    exact parse_record id
  parse_array := by
    intro values hne hvalues
    have hids : ∃ ids : List ℤ, values = ids.map record := by
      clear hne
      induction values with
      | nil => exact ⟨[], rfl⟩
      | cons value values ih =>
        obtain ⟨id, rfl⟩ := isRecord_iff.mp (hvalues value List.mem_cons_self)
        obtain ⟨ids, rfl⟩ := ih fun other hother ↦ hvalues other (.tail _ hother)
        exact ⟨id :: ids, rfl⟩
    obtain ⟨ids, rfl⟩ := hids
    exact parse_array fun hnil ↦ hne (congrArg (List.map record) hnil)

end Document

/-! ### Two merges -/

/-- The text of an array with one record. -/
def single (id : ℤ) : Bytes := Document.toStyledString (.array [.record id])

/-- A merge of the document with id 1 with the one with id 2. -/
def firstMerge : List JsonCall :=
  [.setLocalStr (single 1), .setMysqlStr (single 2), .mergeJson []]

theorem run_firstMerge : ∃ object, run (jsonStep Document.json) .initial firstMerge = .ok object ∧
    object.mergeMap[(1 : ℤ)]? = some (Document.toStyledString (.record 1)) := by
  have htext : (run (jsonStep Document.json) .initial firstMerge).toOption.map
      (fun object ↦ object.mergeMap[(1 : ℤ)]?) =
        some (some (Document.toStyledString (.record 1))) := by
    decide +kernel
  exact exists_ok_of_toOption htext

theorem parse_single (id : ℤ) :
    (Document.json.parse (single id)).bind Document.json.items = some [.record id] :=
  congrArg (Option.bind · Document.items) (Document.parse_array (List.cons_ne_nil id []))

theorem isRecord_single (id : ℤ) :
    ∀ value ∈ [Document.record id], Document.json.IsRecord value := by
  intro value hvalue
  rw [List.mem_singleton.mp hvalue]
  exact ⟨id, rfl⟩

/-- The same merge once more. -/
theorem merge_iff_again : ∃ object,
    run (jsonStep Document.json) .initial firstMerge = .ok object ∧
      ((∃ merged next, ((object.setLocalStr (single 1)).setMysqlStr (single 2)).mergeJson
          Document.json [] = .ok (merged, next) ∧ ∃ result,
            Document.json.parse merged = some (Document.json.array result) ∧
              Document.json.IsMerge [.record 1] [.record 2] result) ↔
        ∀ id text, object.mergeMap[id]? = some text →
          (Document.json.wanted [.record 1] [.record 2] id).map Document.json.toStyledString =
            some text) := by
  obtain ⟨object, hrun, -⟩ := run_firstMerge
  exact ⟨object, hrun, merge_iff Document.json Document.json_inverse hrun (parse_single 1)
    (parse_single 2) (isRecord_single 1) (isRecord_single 2) (.inl (List.cons_ne_nil _ _)) []⟩

/-- A second merge, of two documents with id 2, is left with the record of id 1 in it. -/
theorem earlier_records_return : ∃ object,
    run (jsonStep Document.json) .initial firstMerge = .ok object ∧
      ¬ ∃ merged next, ((object.setLocalStr (single 2)).setMysqlStr (single 2)).mergeJson
          Document.json [] = .ok (merged, next) ∧ ∃ result,
            Document.json.parse merged = some (Document.json.array result) ∧
              Document.json.IsMerge [.record 2] [.record 2] result := by
  obtain ⟨object, hrun, htext⟩ := run_firstMerge
  refine ⟨object, hrun, fun hmerge ↦ ?_⟩
  have hknown : Known Document.json object.mergeMap := known_of_run hrun
  have hwanted := (mergeJson_isMerge_iff
    ((object.setLocalStr (single 2)).setMysqlStr (single 2)) Document.json_inverse hknown
    (parse_single 2) (parse_single 2) (isRecord_single 2) (isRecord_single 2)
    (.inl (List.cons_ne_nil _ _)) []).mp hmerge 1 _ htext
  exact absurd hwanted (by decide)

end TradeServers.ClientDelimiter
