import TradeServers.CLibrary
import TradeServers.LogTimeServer.Pool
import TradeServers.Library.Words

/-!
# The settings of the connection pool

`MysqlPool::loadConfigFile` reads `mysql.conf` line by line and takes the first two words of a line
for a key and its value. Both are read into variables that all lines share, so a line without a
second word assigns the value of an earlier line, and a blank line repeats the assignment before it.
A key that no line begins with is not noticed.

`stored_eq_carried` says what is assigned for any accepted file, and `loadConfigFile_isOk_iff` which
files are accepted. By `loaded_iff` the settings are those that the file gives exactly when its last
line for each key has a value.
-/

set_option autoImplicit false
set_option relaxedAutoImplicit false

namespace TradeServers.LogTimeServer.Pool

open Execution Words

/-! ### Loading -/

/-- The members that `loadConfigFile` assigns, `none` as long as it has not. -/
structure Settings where
  mysqlhost : Option Bytes
  mysqluser : Option Bytes
  mysqlpwd : Option Bytes
  databasename : Option Bytes
  initCount : Option ℤ
  port : Option ℤ
  maxCount : Option ℤ
  maxIdleTime : Option ℤ
  connectionTimeout : Option ℤ
deriving DecidableEq

/-- The settings before `loadConfigFile`. -/
def Settings.unassigned : Settings := ⟨none, none, none, none, none, none, none, none, none⟩

/-- Why `loadConfigFile` returns `false`, as it logs it: `open file error!` and
`wrong conf format`. -/
inductive ConfFault
  | openFile
  | wrongFormat
deriving DecidableEq

/-- The comparisons of the key, and the assignment behind the one that holds. -/
def Settings.assign (settings : Settings) (key value : Bytes) : Option Settings :=
  if key = ascii "ip" then some { settings with mysqlhost := some value }
  else if key = ascii "username" then some { settings with mysqluser := some value }
  else if key = ascii "password" then some { settings with mysqlpwd := some value }
  else if key = ascii "dbname" then some { settings with databasename := some value }
  else if key = ascii "initSize" then some { settings with initCount := some (atoi value) }
  else if key = ascii "port" then some { settings with port := some (atoi value) }
  else if key = ascii "maxSize" then some { settings with maxCount := some (atoi value) }
  else if key = ascii "maxIdleTime" then some { settings with maxIdleTime := some (atoi value) }
  else if key = ascii "connectionTimeOut" then
    some { settings with connectionTimeout := some (atoi value) }
  else none

/-- The variables `key` and `value` of `loadConfigFile`, and the members. -/
structure Loading where
  key : Bytes
  value : Bytes
  settings : Settings

/-- The body of the loop of `loadConfigFile`. A word that is not there leaves its variable as it
was. -/
def loadLine (loading : Loading) (line : Bytes) : Except ConfFault Loading :=
  let first := readWord line loading.key
  let second := readWord first.2 loading.value
  match loading.settings.assign first.1 second.1 with
  | some settings => .ok ⟨first.1, second.1, settings⟩
  | none => .error .wrongFormat

/-- The byte `'\n'`. -/
def newline : UInt8 := 10

/-- `getline(ifs, line)`: the line and what is left of the stream, unless it is at its end. -/
def getline (stream : Bytes) : Option (Bytes × Bytes) :=
  if stream = [] then none
  else some (stream.takeWhile fun byte ↦ byte ≠ newline,
    (stream.dropWhile fun byte ↦ byte ≠ newline).tail)

/-- `MysqlPool::loadConfigFile` on the text of `mysql.conf`, if it can be opened. When it returns
`false` the constructor makes no connection and exits, so nobody reads what was assigned before. -/
def loadConfigFile (file : Option Bytes) (settings : Settings) : Except ConfFault Settings :=
  match file with
  | none => .error .openFile
  | some text => (run loadLine ⟨[], [], settings⟩ (lines newline text)).map Loading.settings

/-- The loop takes its lines from `getline` until there are no more. -/
theorem lines_eq_getline (stream : Bytes) : lines newline stream =
    match getline stream with
    | none => []
    | some (line, rest) => line :: lines newline rest := by
  unfold getline
  by_cases hend : stream = []
  · subst hend
    rfl
  · rw [if_neg hend, lines_of_ne_nil hend]

/-! ### Keys -/

/-- The keys of `mysql.conf`. -/
inductive Key
  | ip
  | username
  | password
  | dbname
  | initSize
  | port
  | maxSize
  | maxIdleTime
  | connectionTimeOut
deriving DecidableEq

/-- How a key is written. -/
def Key.name : Key → Bytes
  | .ip => ascii "ip"
  | .username => ascii "username"
  | .password => ascii "password"
  | .dbname => ascii "dbname"
  | .initSize => ascii "initSize"
  | .port => ascii "port"
  | .maxSize => ascii "maxSize"
  | .maxIdleTime => ascii "maxIdleTime"
  | .connectionTimeOut => ascii "connectionTimeOut"

/-- The value of a setting. -/
inductive Value
  | text (bytes : Bytes)
  | number (value : ℤ)
deriving DecidableEq

/-- The value that a word stands for behind a key. -/
def Key.read (key : Key) (word : Bytes) : Value :=
  match key with
  | .ip | .username | .password | .dbname => .text word
  | .initSize | .port | .maxSize | .maxIdleTime | .connectionTimeOut => .number (atoi word)

/-- The setting that belongs to a key. -/
def Settings.stored (settings : Settings) : Key → Option Value
  | .ip => settings.mysqlhost.map Value.text
  | .username => settings.mysqluser.map Value.text
  | .password => settings.mysqlpwd.map Value.text
  | .dbname => settings.databasename.map Value.text
  | .initSize => settings.initCount.map Value.number
  | .port => settings.port.map Value.number
  | .maxSize => settings.maxCount.map Value.number
  | .maxIdleTime => settings.maxIdleTime.map Value.number
  | .connectionTimeOut => settings.connectionTimeout.map Value.number

theorem stored_unassigned (key : Key) : Settings.unassigned.stored key = none := by
  cases key <;> rfl

theorem name_ne_nil (key : Key) : key.name ≠ [] := by
  cases key <;> exact List.cons_ne_nil _ _

theorem name_injective : Function.Injective Key.name := by
  intro first second hname
  cases first <;> cases second <;> first | rfl | exact absurd hname (by decide)

/-- The name of a key assigns its setting and leaves the others as they are. -/
theorem assign_name (settings : Settings) (key : Key) (value : Bytes) :
    ∃ next, settings.assign key.name value = some next ∧
      next.stored key = some (key.read value) ∧
        ∀ other, other ≠ key → next.stored other = settings.stored other := by
  cases key <;> refine ⟨_, rfl, rfl, ?_⟩ <;> intro other hother <;> cases other <;>
    first | rfl | exact absurd rfl hother

/-- Nothing but the name of a key is accepted. -/
theorem exists_key {settings next : Settings} {name value : Bytes}
    (hassign : settings.assign name value = some next) : ∃ key : Key, key.name = name := by
  by_contra hnone
  have hne : ∀ key : Key, name ≠ key.name := fun key hname ↦ hnone ⟨key, hname.symm⟩
  have hrefused : settings.assign name value = none :=
    (if_neg (hne .ip)).trans <| (if_neg (hne .username)).trans <| (if_neg (hne .password)).trans <|
      (if_neg (hne .dbname)).trans <| (if_neg (hne .initSize)).trans <|
        (if_neg (hne .port)).trans <| (if_neg (hne .maxSize)).trans <|
          (if_neg (hne .maxIdleTime)).trans <| if_neg (hne .connectionTimeOut)
  rw [hrefused] at hassign
  cases hassign

/-! ### What a line gives -/

/-- The first word of a line. -/
def firstWord (line : Bytes) : Option Bytes := (words isSpace line).head?

/-- The second word of a line. -/
def secondWord (line : Bytes) : Option Bytes := (words isSpace line).tail.head?

/-- Reading a word takes the first one off the stream. -/
theorem readWord_spec (stream previous : Bytes) :
    (readWord stream previous).1 = (firstWord stream).getD previous ∧
      words isSpace (readWord stream previous).2 = (words isSpace stream).tail := by
  unfold readWord firstWord
  dsimp only
  by_cases hblank : stream.dropWhile isSpace = []
  · rw [if_pos hblank, words_of_nil hblank]
    exact ⟨rfl, rfl⟩
  · rw [if_neg hblank, words_of_ne_nil hblank]
    exact ⟨rfl, rfl⟩

variable {loading next : Loading} {line : Bytes} {text : Bytes} {settings : Settings}

/-- The key and the value of a line are its first two words, or else those at hand. -/
theorem loadLine_eq_ok_iff : loadLine loading line = .ok next ↔
    next.key = (firstWord line).getD loading.key ∧
      next.value = (secondWord line).getD loading.value ∧
        loading.settings.assign next.key next.value = some next.settings := by
  have hfirst := readWord_spec line loading.key
  have hsecond := readWord_spec (readWord line loading.key).2 loading.value
  rw [firstWord, hfirst.2] at hsecond
  unfold loadLine secondWord
  dsimp only
  rw [← hfirst.1, ← hsecond.1]
  constructor
  · intro hload
    split at hload
    · rename_i assigned hassign
      obtain rfl := Except.ok.inj hload
      exact ⟨rfl, rfl, hassign⟩
    · cases hload
  · rintro ⟨hkey, hvalue, hassign⟩
    rw [← hkey, ← hvalue, hassign]

/-- The first word of the line is the key. -/
def Key.opens (key : Key) (line : Bytes) : Bool := firstWord line = some key.name

/-- The second word of the last line whose first word is the key. -/
def Key.given (key : Key) (text : Bytes) : Option Bytes :=
  Words.given key.opens secondWord (lines newline text)

/-- The value that `loadConfigFile` has at hand in the last line whose first word is the key: the
second word of that line, or of the last line before it that has one. -/
def Key.carried (key : Key) (entries : List Bytes) : Option Bytes :=
  Words.carried key.opens secondWord [] entries

/-! ### Any accepted file -/

/-- Where `loadConfigFile` stands behind some lines. The key at hand is that of the last assignment,
also behind lines that are blank. -/
structure Follows (seen : List Bytes) (loading : Loading) : Prop where
  value : loading.value = latest secondWord [] seen
  current : ∀ key : Key, key.name = loading.key → key.carried seen = some loading.value
  stored : ∀ key : Key, loading.settings.stored key = (key.carried seen).map key.read

theorem follows_nil : Follows [] ⟨[], [], .unassigned⟩ where
  value := rfl
  current key hname := absurd hname (name_ne_nil key)
  stored key := stored_unassigned key

/-- A line that gives another key, or none while another is at hand, is not for the key. -/
theorem carried_concat_of_ne {seen : List Bytes} {key : Key}
    (hkey : next.key = (firstWord line).getD loading.key) (hother : key.name ≠ next.key) :
    key.carried (seen ++ [line]) = key.carried seen := by
  refine carried_concat_of_neg (fun hopens ↦ hother ?_) seen
  rw [hkey, of_decide_eq_true hopens, Option.getD_some]

/-- Only a blank line can have a key at hand that it does not begin with. -/
theorem firstWord_of_not_opens {key : Key} (hkey : next.key = (firstWord line).getD loading.key)
    (hname : key.name = next.key) (hopens : ¬ key.opens line) : firstWord line = none := by
  by_contra hfirst
  obtain ⟨word, hword⟩ := Option.ne_none_iff_exists'.mp hfirst
  rw [hword, Option.getD_some, ← hname] at hkey
  rw [← hkey] at hword
  exact hopens (decide_eq_true hword)

theorem secondWord_of_blank (hblank : firstWord line = none) : secondWord line = none := by
  rw [secondWord, List.head?_eq_none_iff.mp hblank]
  rfl

/-- Each line that is accepted leaves its key with the value at hand. -/
theorem Follows.carried_concat {seen : List Bytes} (hfollows : Follows seen loading)
    (hload : loadLine loading line = .ok next) {key : Key} (hname : key.name = next.key) :
    key.carried (seen ++ [line]) = some next.value := by
  obtain ⟨hkey, hvalue, -⟩ := loadLine_eq_ok_iff.mp hload
  by_cases hopens : key.opens line
  · rw [hvalue, hfollows.value, ← latest_concat]
    exact carried_concat_of_pos hopens seen
  · have hblank := firstWord_of_not_opens hkey hname hopens
    rw [hblank, Option.getD_none] at hkey
    rw [hvalue, secondWord_of_blank hblank, Option.getD_none,
      ← hfollows.current key (hname.trans hkey)]
    exact carried_concat_of_neg hopens seen

/-- The other keys keep what they had. -/
theorem Follows.step {seen : List Bytes} (hfollows : Follows seen loading)
    (hload : loadLine loading line = .ok next) : Follows (seen ++ [line]) next := by
  obtain ⟨hkey, hvalue, hassign⟩ := loadLine_eq_ok_iff.mp hload
  obtain ⟨key, hname⟩ := exists_key hassign
  obtain ⟨assigned, hassigned, hself, hrest⟩ := assign_name loading.settings key next.value
  rw [hname, hassign] at hassigned
  obtain rfl := Option.some.inj hassigned
  constructor
  · rw [latest_concat, hvalue, hfollows.value]
  · exact fun other hother ↦ hfollows.carried_concat hload hother
  · intro other
    by_cases hother : other = key
    · rw [hother, hself, hfollows.carried_concat hload hname, Option.map_some]
    · have hne : other.name ≠ next.key := by
        rw [← hname]
        exact fun hsame ↦ hother (name_injective hsame)
      rw [hrest other hother, hfollows.stored, carried_concat_of_ne hkey hne]

theorem loadConfigFile_eq_ok_iff :
    loadConfigFile (some text) .unassigned = .ok settings ↔
      ∃ loading, run loadLine ⟨[], [], .unassigned⟩ (lines newline text) = .ok loading ∧
        loading.settings = settings := by
  unfold loadConfigFile
  dsimp only
  cases run loadLine ⟨[], [], .unassigned⟩ (lines newline text) <;> simp [Except.map]

/-- For any file that `loadConfigFile` accepts, every setting is what was at hand in the last line
that begins with its key. -/
theorem stored_eq_carried (hload : loadConfigFile (some text) .unassigned = .ok settings)
    (key : Key) :
    settings.stored key = (key.carried (lines newline text)).map key.read := by
  obtain ⟨loading, hrun, rfl⟩ := loadConfigFile_eq_ok_iff.mp hload
  have hpreserved : ∀ (seen : List Bytes) (loading : Loading) (line : Bytes) (next : Loading),
      Follows seen loading → True → loadLine loading line = .ok next →
        Follows (seen ++ [line]) next :=
    fun _ _ _ _ hfollows _ hline ↦ hfollows.step hline
  have hguarded : Guarded loadLine (fun _ _ ↦ True) ⟨[], [], .unassigned⟩ (lines newline text) :=
    guarded_of_forall_mem (fun _ _ ↦ trivial) _
  exact (Guarded.run_history hpreserved follows_nil hguarded hrun).stored key

/-- A setting is not assigned exactly when no line begins with its key. -/
theorem stored_eq_none_iff (hload : loadConfigFile (some text) .unassigned = .ok settings)
    (key : Key) :
    settings.stored key = none ↔ ∀ line ∈ lines newline text, firstWord line ≠ some key.name := by
  rw [stored_eq_carried hload, Option.map_eq_none_iff, Key.carried, carried_eq_none_iff]
  simp [Key.opens]

/-! ### Which files are accepted -/

/-- One of the nine keys, as it is written. -/
def IsName (name : Bytes) : Prop := ∃ key : Key, key.name = name

theorem loadLine_isOk_iff : (∃ next, loadLine loading line = .ok next) ↔
    IsName ((firstWord line).getD loading.key) := by
  constructor
  · rintro ⟨next, hload⟩
    obtain ⟨hkey, -, hassign⟩ := loadLine_eq_ok_iff.mp hload
    rw [← hkey]
    exact exists_key hassign
  · rintro ⟨key, hname⟩
    obtain ⟨assigned, hassign, -, -⟩ :=
      assign_name loading.settings key ((secondWord line).getD loading.value)
    rw [hname] at hassign
    exact ⟨⟨_, _, assigned⟩, loadLine_eq_ok_iff.mpr ⟨rfl, rfl, hassign⟩⟩

/-- Where a key is at hand, the next line is accepted unless it begins with another word. -/
theorem isName_getD_iff {name : Bytes} (hname : IsName name) :
    IsName ((firstWord line).getD name) ↔ ∀ word ∈ firstWord line, IsName word := by
  cases hfirst : firstWord line <;> simp [hname]

/-- Lines behind an accepted one are accepted when none begins with a word that is no key. -/
theorem run_loadLine_isOk_iff (hname : IsName loading.key) {entries : List Bytes} :
    (∃ final, run loadLine loading entries = .ok final) ↔
      ∀ line ∈ entries, ∀ word ∈ firstWord line, IsName word := by
  have hkept : ∀ (state : Loading) (line : Bytes) (next : Loading), IsName state.key →
      loadLine state line = .ok next → IsName next.key := by
    intro state line next _ hload
    exact exists_key (loadLine_eq_ok_iff.mp hload).2.2
  have hguard : ∀ (state : Loading) (line : Bytes), IsName state.key →
      ((∃ next, loadLine state line = .ok next) ↔ ∀ word ∈ firstWord line, IsName word) :=
    fun state line hstate ↦ loadLine_isOk_iff.trans (isName_getD_iff hstate)
  have hstep : ∀ (state : Loading) (line : Bytes), IsName state.key →
      (∀ word ∈ firstWord line, IsName word) →
        ∃ next, loadLine state line = .ok next ∧ IsName next.key := by
    intro state line hstate hline
    obtain ⟨next, hload⟩ := (hguard state line hstate).mpr hline
    exact ⟨next, hload, hkept state line next hstate hload⟩
  have hguarded : (∃ final, run loadLine loading entries = .ok final) ↔
      Guarded loadLine (fun _ line ↦ ∀ word ∈ firstWord line, IsName word) loading entries :=
    run_isOk_iff_guarded hkept hguard hname
  have hsame : ∀ (state : Loading) (line : Bytes), IsName state.key →
      ((∀ word ∈ firstWord line, IsName word) ↔ ∀ word ∈ firstWord line, IsName word) :=
    fun _ _ _ ↦ Iff.rfl
  rw [hguarded]
  exact guarded_iff_forall_mem hsame hstep hname

/-- `loadConfigFile` returns `true` when the first line is not blank and every line that is not
begins with a key. -/
theorem loadConfigFile_isOk_iff :
    (∃ settings, loadConfigFile (some text) .unassigned = .ok settings) ↔
      (∀ line ∈ (lines newline text).head?, firstWord line ≠ none) ∧
        ∀ line ∈ lines newline text, ∀ word ∈ firstWord line, IsName word := by
  have hload : (∃ settings, loadConfigFile (some text) .unassigned = .ok settings) ↔
      ∃ final, run loadLine ⟨[], [], .unassigned⟩ (lines newline text) = .ok final := by
    simp [loadConfigFile_eq_ok_iff]
  rw [hload]
  cases hlines : lines newline text with
  | nil => simp
  | cons line rest =>
    rw [List.forall_mem_cons, List.head?_cons]
    constructor
    · rintro ⟨final, hrun⟩
      obtain ⟨next, hline, hrest⟩ := run_cons_eq_ok_iff.mp hrun
      have hfirst := loadLine_isOk_iff.mp ⟨next, hline⟩
      have hname : IsName next.key := exists_key (loadLine_eq_ok_iff.mp hline).2.2
      cases hword : firstWord line with
      | none =>
        rw [hword] at hfirst
        obtain ⟨key, hkey⟩ := hfirst
        exact absurd hkey (name_ne_nil key)
      | some word =>
        rw [hword] at hfirst
        refine ⟨by simp [hword], ?_, (run_loadLine_isOk_iff hname).mp ⟨final, hrest⟩⟩
        rintro _ ⟨⟩
        exact hfirst
    · rintro ⟨hblank, hline, hrest⟩
      obtain ⟨word, hword⟩ := Option.ne_none_iff_exists'.mp (hblank line rfl)
      have hfirst : IsName ((firstWord line).getD []) := by
        rw [hword]
        exact hline word hword
      have hopen : ∃ next, loadLine ⟨[], [], .unassigned⟩ line = .ok next :=
        loadLine_isOk_iff.mpr hfirst
      obtain ⟨next, hnext⟩ := hopen
      have hname : IsName next.key := exists_key (loadLine_eq_ok_iff.mp hnext).2.2
      obtain ⟨final, hrun⟩ := (run_loadLine_isOk_iff hname).mpr hrest
      exact ⟨final, run_cons_eq_ok_iff.mpr ⟨next, hnext, hrun⟩⟩

/-! ### Complete files -/

/-- Every setting has been assigned, and its value is the second word of the last line whose first
word is the key. -/
def Loaded (text : Bytes) (settings : Settings) : Prop :=
  ∀ key : Key, ∃ word, key.given text = some word ∧ settings.stored key = some (key.read word)

/-- Every key begins a line, and the last line that it begins has a second word. -/
def Complete (text : Bytes) : Prop :=
  ∀ key : Key, ∃ line ∈ lastOf key.opens (lines newline text), secondWord line ≠ none

theorem Complete.given (hcomplete : Complete text) (key : Key) :
    ∃ word, key.given text = some word := by
  obtain ⟨line, hline, hword⟩ := hcomplete key
  obtain ⟨word, hword⟩ := Option.ne_none_iff_exists'.mp hword
  exact ⟨word, Option.bind_eq_some_iff.mpr ⟨line, hline, hword⟩⟩

/-- What the last line for a key gives is the value of the setting. -/
theorem stored_of_given (hload : loadConfigFile (some text) .unassigned = .ok settings) {key : Key}
    {word : Bytes} (hgiven : key.given text = some word) :
    settings.stored key = some (key.read word) := by
  have hcarried : key.carried (lines newline text) = some word := carried_of_given hgiven
  rw [stored_eq_carried hload, hcarried, Option.map_some]

/-- When `loadConfigFile` returns `true`, every setting has been assigned the second word of the
last line whose first word is its key, exactly when every key begins a line and the last such line
has a second word. -/
theorem loaded_iff (text : Bytes) (settings : Settings)
    (hload : loadConfigFile (some text) .unassigned = .ok settings) :
    Loaded text settings ↔ Complete text := by
  constructor
  · intro hloaded key
    obtain ⟨word, hgiven, -⟩ := hloaded key
    obtain ⟨line, hline, hword⟩ := Option.bind_eq_some_iff.mp hgiven
    exact ⟨line, hline, Option.ne_none_iff_exists'.mpr ⟨word, hword⟩⟩
  · intro hcomplete key
    obtain ⟨word, hgiven⟩ := hcomplete.given key
    exact ⟨word, hgiven, stored_of_given hload hgiven⟩

/-- A file with blank lines, a key that is given twice and one whose first line has no value. -/
def completeConf : Bytes :=
  ascii "ip 10.0.0.1\n\nusername u\npassword p\ninitSize 5\nport\n  port 3306\ndbname d\n\n" ++
    ascii "maxSize 9\nmaxIdleTime 60\nmaxSize 20\nconnectionTimeOut 100"

/-- What it assigns. -/
def completeSettings : Settings where
  mysqlhost := some (ascii "10.0.0.1")
  mysqluser := some (ascii "u")
  mysqlpwd := some (ascii "p")
  databasename := some (ascii "d")
  initCount := some 5
  port := some 3306
  maxCount := some 20
  maxIdleTime := some 60
  connectionTimeout := some 100

theorem completeConf_loaded : Loaded completeConf completeSettings := by
  have hcomplete : Complete completeConf := by
    intro key
    cases key <;> exact ⟨_, rfl, by decide⟩
  exact (loaded_iff completeConf completeSettings rfl).mpr hcomplete

/-- A file in which the line of the port has no value. -/
def keyOnlyConf : Bytes :=
  ascii "ip 10.0.0.1\nusername u\npassword p\ndbname d\ninitSize 5\nport\nmaxSize 20\n" ++
    ascii "maxIdleTime 60\nconnectionTimeOut 100\n"

/-- With that file the port is the initial count, and with an empty file nothing is assigned. -/
theorem key_only_line_takes_over :
    loadConfigFile (some keyOnlyConf) .unassigned = .ok { completeSettings with port := some 5 } ∧
      ¬ Loaded keyOnlyConf { completeSettings with port := some 5 } ∧
      loadConfigFile (some []) .unassigned = .ok .unassigned ∧ ¬ Loaded [] .unassigned := by
  refine ⟨rfl, fun hloaded ↦ ?_, rfl, fun hloaded ↦ ?_⟩
  · obtain ⟨word, hgiven, -⟩ := hloaded .port
    have hnone : Key.port.given keyOnlyConf = none := rfl
    rw [hnone] at hgiven
    cases hgiven
  · obtain ⟨word, hgiven, -⟩ := hloaded .port
    cases hgiven

/-! ### The constructor -/

/-- The settings that the critical sections read. `_initCount` and `_maxCount` are set to 0 before
the file is read; `_maxIdleTime` is whatever its memory holds. -/
def Settings.config (settings : Settings) (memory : ℤ) : Config where
  initCount := settings.initCount.getD 0
  maxCount := settings.maxCount.getD 0
  maxIdleTime := settings.maxIdleTime.getD memory

/-- `MysqlPool::MysqlPool` with the text of `mysql.conf`. -/
def constructFrom (file : Option Bytes) (memory : ℤ) (connect : ℕ → Bool) (now : ℕ → ℤ) :
    Option (Config × State) :=
  match loadConfigFile file .unassigned with
  | .error _ => none
  | .ok settings =>
    let config := settings.config memory
    (construct config connect now).map fun pool ↦ (config, pool)

theorem config_of_stored {initCount maxCount maxIdleTime : ℤ}
    (hinit : settings.stored .initSize = some (.number initCount))
    (hmax : settings.stored .maxSize = some (.number maxCount))
    (hidle : settings.stored .maxIdleTime = some (.number maxIdleTime)) (memory : ℤ) :
    settings.config memory = ⟨initCount, maxCount, maxIdleTime⟩ := by
  simp only [Settings.stored, Option.map_eq_some_iff, Value.number.injEq, exists_eq_right]
    at hinit hmax hidle
  rw [Settings.config, hinit, hmax, hidle]
  rfl

/-- The pool that is constructed from a complete file that is accepted runs with the values of that
file, whatever the memory held. -/
theorem constructFrom_of_complete
    (hload : loadConfigFile (some text) .unassigned = .ok settings) (hcomplete : Complete text) :
    ∃ initSize maxSize maxIdleTime, Key.initSize.given text = some initSize ∧
      Key.maxSize.given text = some maxSize ∧ Key.maxIdleTime.given text = some maxIdleTime ∧
        ∀ memory connect now, constructFrom (some text) memory connect now =
          (construct ⟨atoi initSize, atoi maxSize, atoi maxIdleTime⟩ connect now).map fun pool ↦
            (⟨atoi initSize, atoi maxSize, atoi maxIdleTime⟩, pool) := by
  obtain ⟨initSize, hinitSize⟩ := hcomplete.given .initSize
  obtain ⟨maxSize, hmaxSize⟩ := hcomplete.given .maxSize
  obtain ⟨maxIdleTime, hmaxIdleTime⟩ := hcomplete.given .maxIdleTime
  refine ⟨initSize, maxSize, maxIdleTime, hinitSize, hmaxSize, hmaxIdleTime, fun memory _ _ ↦ ?_⟩
  have hconfig : settings.config memory = ⟨atoi initSize, atoi maxSize, atoi maxIdleTime⟩ :=
    config_of_stored (stored_of_given hload hinitSize) (stored_of_given hload hmaxSize)
      (stored_of_given hload hmaxIdleTime) memory
  rw [constructFrom, hload]
  simp only [hconfig]

/-- From a file that is accepted but has no line for `maxIdleTime`, the pool runs with an idle time
that is whatever the memory held. -/
theorem config_of_no_maxIdleTime
    (hload : loadConfigFile (some text) .unassigned = .ok settings)
    (habsent : ∀ line ∈ lines newline text, firstWord line ≠ some (ascii "maxIdleTime"))
    (memory : ℤ) : (settings.config memory).maxIdleTime = memory := by
  have hnone : settings.stored .maxIdleTime = none :=
    (stored_eq_none_iff hload .maxIdleTime).mpr habsent
  rw [Settings.stored, Option.map_eq_none_iff] at hnone
  rw [Settings.config, hnone, Option.getD_none]

end TradeServers.LogTimeServer.Pool
