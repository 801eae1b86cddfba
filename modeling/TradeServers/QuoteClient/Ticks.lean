import TradeServers.CLibrary
import TradeServers.Slot
import TradeServers.Library.Execution

/-!
# Messages and ticks of the quote client

The upstream servers send quotes as text: fields between bars, of which `dealMessage` uses the
instrument, the trade time and the latest price. The conversions between text and numbers are those
of the C++ library; what the code relies on of them is a `Platform`.
-/

set_option autoImplicit false
set_option relaxedAutoImplicit false

namespace TradeServers.QuoteClient

/-! ### Messages -/

/-- The size of `Header`. -/
def headerLen : ℕ := 12

/-- `lginBody`. -/
def lginBody : Bytes := ascii "FL@G4AES8LJF3R3RT5POE9KFA@HFASF$;NASF(*&J;JFEASFJKJ;FEAF^FEAFHLL"

/-- The values that both `onStringMessage` functions cut out of a message of at least `headerLen`
bytes. -/
structure Message where
  cmd : Bytes
  format : Bytes
  body : Bytes

/-- The header parsing of `onStringMessage`. -/
def parseMessage (message : Bytes) : Message where
  cmd := cutAt 0 (substr message 0 8)
  format := cutAt 0 (substr message 8 4)
  body := message.drop headerLen

/-- The body that `quoteClient::onStringMessage` puts into the tick buffer, if the message is a
quote. -/
def quoteOf (message : Bytes) : Option Bytes :=
  if headerLen ≤ message.length then
    let parsed := parseMessage message
    if parsed.cmd = ascii "HQDY" then some parsed.body else none
  else none

/-- The messages for which `QuoteServer::onStringMessage` inserts the connection into
`checkConns_`. -/
def IsLogin (message : Bytes) : Prop :=
  headerLen ≤ message.length ∧ (parseMessage message).cmd = ascii "LGIN" ∧
    (parseMessage message).format = ascii "TXT" ∧ (parseMessage message).body = lginBody

instance (message : Bytes) : Decidable (IsLogin message) :=
  inferInstanceAs (Decidable (_ ∧ _ ∧ _ ∧ _))

/-- The message in which an upstream server sends a quote. -/
def quoteMessage (body : Bytes) : Bytes :=
  ascii "HQDY" ++ List.replicate 4 0 ++ ascii "TXT" ++ List.replicate 1 0 ++ body

theorem quoteOf_quoteMessage (body : Bytes) : quoteOf (quoteMessage body) = some body := by
  have hlength : headerLen ≤ (quoteMessage body).length := Nat.le_add_left 12 body.length
  have hcmd : (parseMessage (quoteMessage body)).cmd = ascii "HQDY" := by
    change cutAt 0 (ascii "HQDY" ++ List.replicate 4 0) = ascii "HQDY"
    decide
  rw [quoteOf, if_pos hlength]
  exact if_pos hcmd

/-! ### The C++ library -/

/-- The fields of `struct tm` that `str_to_time_t` sets. -/
structure Tm where
  year : ℤ
  mon : ℤ
  mday : ℤ
  hour : ℤ
  min : ℤ
  sec : ℤ

/-- What the code takes from the C++ library: `mktime` in the local time zone, the arithmetic of
`double`, `std::stod` (`none` when it throws), a stream that writes a `double` with `std::fixed` and
a precision or with its default format, and one that reads a `double` back. -/
structure Platform (Double : Type) where
  mktime : Tm → ℤ
  zero : Double
  hundred : Double
  sub : Double → Double → Double
  div : Double → Double → Double
  mul : Double → Double → Double
  isZero : Double → Bool
  stod : Bytes → Option Double
  fixed : ℕ → Double → Bytes
  general : Double → Bytes
  read : Bytes → Double

/-- The number at the start of a text, without sign and exponent. -/
def readDecimal (text : Bytes) : Option ℚ :=
  let whole := text.takeWhile isDigit
  let rest := text.dropWhile isDigit
  let fraction := if rest.head? = some 46 then rest.tail.takeWhile isDigit else []
  if whole ++ fraction = [] then none
  else some (DecimalText.readNat (whole ++ fraction) / 10 ^ fraction.length)

/-- The text of a number with the given count of digits behind the point. -/
def writeDecimal (digits : ℕ) (number : ℚ) : Bytes :=
  let scaled := (|number| * 10 ^ digits + 1 / 2).floor.toNat
  let fraction := DecimalText.natText (scaled % 10 ^ digits)
  (if number < 0 then [DecimalText.minus] else []) ++ DecimalText.natText (scaled / 10 ^ digits) ++
    [46] ++ List.replicate (digits - fraction.length) 48 ++ fraction

/-- The days from the first day of 1970 to a date. -/
def daysFromCivil (year month day : ℤ) : ℤ :=
  let year := if month ≤ 2 then year - 1 else year
  let yearOfEra := year - year / 400 * 400
  let dayOfYear := (153 * (if 2 < month then month - 3 else month + 9) + 2) / 5 + day - 1
  year / 400 * 146097 + (yearOfEra * 365 + yearOfEra / 4 - yearOfEra / 100 + dayOfYear) - 719468

/-- A platform with exact arithmetic in the time zone UTC. It agrees with the real one on dates of
the calendar, on prices without sign and exponent, and on whole changes of at most six digits. -/
def Platform.exact : Platform ℚ where
  mktime := fun tm ↦
    ((daysFromCivil (tm.year + 1900) (tm.mon + 1) tm.mday * 24 + tm.hour) * 60 + tm.min) * 60 +
      tm.sec
  zero := 0
  hundred := 100
  sub := (· - ·)
  div := (· / ·)
  mul := (· * ·)
  isZero := (· = 0)
  stod := readDecimal
  fixed := writeDecimal
  general := fun number ↦
    if number.den = 1 then DecimalText.intText number.num else writeDecimal 2 number
  read := fun text ↦
    if text.head? = some DecimalText.minus then -(readDecimal text.tail).getD 0
    else (readDecimal text).getD 0

/-! ### Ticks -/

/-- The byte between the fields of a tick. -/
def bar : UInt8 := 124

/-- What `dealMessage` takes out of a tick. -/
@[ext]
structure Tick (Double : Type) where
  comodity : Bytes
  contractNo : Bytes
  exchange : Bytes
  tradeTime : ℤ
  newPrice : Double

/-- What ends the program in `dealMessage`: an access to `strVec` beyond its end, or an exception of
`std::stod`, which nothing catches. -/
inductive Fault
  | outOfRange (index : ℕ)
  | stod
deriving DecidableEq

/-- `strVec[index]`. -/
def field (strVec : List Bytes) (index : ℕ) : Except Fault Bytes :=
  match strVec[index]? with
  | some text => .ok text
  | none => .error (.outOfRange index)

section Platform

variable {Double : Type} (platform : Platform Double)

/-- `str_to_time_t`. The fields that `sscanf` does not reach stay zero. -/
def strToTimeT (ATime : Bytes) : ℤ :=
  let numbers := scanInts [45, 45, 32, 58, 58] (cString ATime)
  platform.mktime
    { year := addInt32 (numbers.getD 0 0) (-1900)
      mon := addInt32 (numbers.getD 1 0) (-1)
      mday := numbers.getD 2 0
      hour := numbers.getD 3 0
      min := numbers.getD 4 0
      sec := numbers.getD 5 0 }

/-- `round`: two digits behind the point, by way of a stream. -/
def round (src : Double) : Double := platform.read (platform.fixed 2 src)

/-- The fields of a tick that the body of `dealMessage` reads from `strVec`. -/
def tickOf (strVec : List Bytes) : Except Fault (Tick Double) := do
  let comodity ← field strVec 1
  let contractNo ← field strVec 2
  let exchange ← field strVec 3
  let tradeTime ← field strVec 4
  let newPrice ← field strVec 10
  match platform.stod (cString newPrice) with
  | some newPrice => .ok ⟨comodity, contractNo, exchange, strToTimeT platform tradeTime, newPrice⟩
  | none => .error .stod

/-- The first part of the body of `dealMessage`, for the tokens of one tick. -/
def parseTick (itFront : Bytes) : Except Fault (Tick Double) := tickOf platform (strtok bar itFront)

theorem field_eq_ok_iff {strVec : List Bytes} {index : ℕ} {text : Bytes} :
    field strVec index = .ok text ↔ strVec[index]? = some text := by
  unfold field
  cases strVec[index]? with
  | none => simp
  | some other => simp

/-- The bodies that `dealMessage` gets a tick out of. -/
theorem parseTick_eq_ok_iff {itFront : Bytes} {tick : Tick Double} :
    parseTick platform itFront = .ok tick ↔
      ∃ tradeTime newPrice, (strtok bar itFront)[1]? = some tick.comodity ∧
        (strtok bar itFront)[2]? = some tick.contractNo ∧
        (strtok bar itFront)[3]? = some tick.exchange ∧
        (strtok bar itFront)[4]? = some tradeTime ∧
        (strtok bar itFront)[10]? = some newPrice ∧
        strToTimeT platform tradeTime = tick.tradeTime ∧
        platform.stod (cString newPrice) = some tick.newPrice := by
  simp only [parseTick, tickOf, Execution.bind_eq_ok_iff, field_eq_ok_iff]
  constructor
  · rintro ⟨comodity, hcomodity, contractNo, hcontractNo, exchange, hexchange, tradeTime,
      htradeTime, price, hprice, htick⟩
    cases hstod : platform.stod (cString price) with
    | none =>
      rw [hstod] at htick
      cases htick
    | some newPrice =>
      rw [hstod] at htick
      obtain rfl := Except.ok.inj htick
      exact ⟨tradeTime, price, hcomodity, hcontractNo, hexchange, htradeTime, hprice, rfl, hstod⟩
  · rintro ⟨tradeTime, price, hcomodity, hcontractNo, hexchange, htradeTime, hprice, htime, hstod⟩
    refine ⟨_, hcomodity, _, hcontractNo, _, hexchange, _, htradeTime, _, hprice, ?_⟩
    rw [hstod]
    dsimp only
    rw [htime]

end Platform

/-! ### Texts of ticks -/

/-- Nonempty text without bars and NUL bytes, which can stand between bars. -/
structure IsField (text : Bytes) : Prop where
  nonempty : text ≠ []
  unbarred : bar ∉ text
  nul : 0 ∉ text

instance (text : Bytes) : Decidable (IsField text) :=
  decidable_of_iff (text ≠ [] ∧ bar ∉ text ∧ 0 ∉ text)
    ⟨fun hall ↦ ⟨hall.1, hall.2.1, hall.2.2⟩, fun hfield ↦
      ⟨hfield.nonempty, hfield.unbarred, hfield.nul⟩⟩

/-- Fields with bars between them. -/
def tickText (fields : List Bytes) : Bytes := [bar].intercalate fields

theorem nul_not_mem_tickText {fields : List Bytes} (hnul : ∀ text ∈ fields, 0 ∉ text) :
    0 ∉ tickText fields := by
  unfold tickText
  induction fields with
  | nil => exact List.not_mem_nil
  | cons text fields ih =>
    obtain ⟨htext, hrest⟩ := List.forall_mem_cons.mp hnul
    by_cases hlast : fields = []
    · rw [hlast, List.intercalate_singleton]
      exact htext
    · rw [List.intercalate_cons_of_ne_nil hlast, List.mem_append, List.mem_append]
      rintro ((hmem | hbar) | hmem)
      · exact htext hmem
      · exact absurd hbar (by decide)
      · exact ih hrest hmem

/-- The tokens are the fields that are not empty. -/
theorem strtok_tickText_eq_filter {fields : List Bytes} (hunbarred : ∀ text ∈ fields, bar ∉ text)
    (hnul : ∀ text ∈ fields, 0 ∉ text) :
    strtok bar (tickText fields) = fields.filter (· ≠ []) := by
  rw [strtok, cString_eq_of_nul (nul_not_mem_tickText hnul)]
  by_cases hnone : fields = []
  · rw [hnone]
    rfl
  · rw [tickText, List.splitOn_intercalate bar hunbarred hnone]

/-- The fields between the bars are recovered. -/
theorem strtok_tickText {fields : List Bytes} (hfields : ∀ text ∈ fields, IsField text) :
    strtok bar (tickText fields) = fields := by
  rw [strtok_tickText_eq_filter (fun text htext ↦ (hfields text htext).unbarred)
    fun text htext ↦ (hfields text htext).nul]
  exact List.filter_eq_self.mpr fun text htext ↦ decide_eq_true (hfields text htext).nonempty

/-- The tick of eleven fields or more. -/
theorem parseTick_tickText {Double : Type} (platform : Platform Double) {fields : List Bytes}
    (hfields : ∀ text ∈ fields, IsField text) (hlength : 11 ≤ fields.length) {newPrice : Double}
    (hprice : platform.stod fields[10] = some newPrice) :
    parseTick platform (tickText fields) =
      .ok ⟨fields[1], fields[2], fields[3], strToTimeT platform fields[4], newPrice⟩ := by
  rw [parseTick_eq_ok_iff, strtok_tickText hfields]
  have hnul : cString fields[10] = fields[10] :=
    cString_eq_of_nul (hfields _ (List.getElem_mem _)).nul
  refine ⟨fields[4], fields[10], List.getElem?_eq_getElem _, List.getElem?_eq_getElem _,
    List.getElem?_eq_getElem _, List.getElem?_eq_getElem _, List.getElem?_eq_getElem _, rfl, ?_⟩
  rw [hnul, hprice]

/-- A tick of corn. -/
def cornTick : Bytes := ascii "q|c|s2009|DCE|1970-01-01 00:00:00|q|q|q|q|q|1"

theorem parse_cornTick : ∃ tick, parseTick Platform.exact cornTick = .ok tick := by
  have hok : (parseTick Platform.exact cornTick).isOk = true := by decide +kernel
  cases hparse : parseTick Platform.exact cornTick with
  | error fault =>
    rw [hparse] at hok
    cases hok
  | ok tick => exact ⟨tick, rfl⟩

end TradeServers.QuoteClient
