import TradeServers.QuoteClient.Windows

/-!
# Instruments that share their windows

An instrument is named by its commodity, its contract number and its exchange, and its queues are
found under these names without anything between them. The prices of two instruments whose names
give the same text therefore go to the same queues. `isolated_iff` says that an instrument is
isolated from others exactly when none of them does that.
-/

set_option autoImplicit false
set_option relaxedAutoImplicit false

namespace TradeServers.QuoteClient

open SlidingWindow

/-- The names of an instrument. -/
@[ext]
structure Instrument where
  comodity : Bytes
  contractNo : Bytes
  exchange : Bytes
deriving DecidableEq

/-- The names one after the other. -/
def Instrument.str (instrument : Instrument) : Bytes :=
  instrument.comodity ++ instrument.contractNo ++ instrument.exchange

/-- Names that can stand between the bars of a tick. -/
structure Instrument.Named (instrument : Instrument) : Prop where
  comodity : IsField instrument.comodity
  contractNo : IsField instrument.contractNo
  exchange : IsField instrument.exchange

section Isolation

variable {Double : Type}

/-- The instrument of a tick. -/
def Tick.instrument (tick : Tick Double) : Instrument :=
  ⟨tick.comodity, tick.contractNo, tick.exchange⟩

theorem str_instrument (tick : Tick Double) : tick.instrument.str = tick.str := rfl

variable (platform : Platform Double)

/-- The tick of a text of at least eleven nonempty fields. -/
def WellFormed (tick : Tick Double) : Prop :=
  ∃ fields, (∀ text ∈ fields, IsField text) ∧ 11 ≤ fields.length ∧
    parseTick platform (tickText fields) = .ok tick

/-- After every tick of the instrument in a history of well formed ticks, the base prices of its
windows are what they are when the ticks of the other instruments are left out of the history. -/
def Isolated (instrument : Instrument) (others : Set Instrument) : Prop :=
  ∀ before : List (Tick Double), ∀ tick window,
    (∀ other ∈ before, WellFormed platform other ∧
      (other.instrument = instrument ∨ other.instrument ∈ others)) →
    WellFormed platform tick → tick.instrument = instrument →
    basePrice (windowsAfter (before ++ [tick])) tick window =
      basePrice (windowsAfter ((before.filter fun other ↦ other.instrument = instrument) ++ [tick]))
        tick window

/-- The base price depends on the ticks of the same names only. -/
theorem basePrice_congr {first second : List (Tick Double)} {tick : Tick Double}
    (hown : own tick.str first = own tick.str second) (window : Window) :
    basePrice (windowsAfter (first ++ [tick])) tick window =
      basePrice (windowsAfter (second ++ [tick])) tick window := by
  rw [basePrice, basePrice, queueOf_windowsAfter_concat, queueOf_windowsAfter_concat, hown]

/-- Leaving out the ticks of other instruments leaves the ticks of the same names when no other
instrument has them. -/
theorem own_filter_instrument {before : List (Tick Double)} {instrument : Instrument}
    (hdistinct : ∀ other ∈ before, other.str = instrument.str → other.instrument = instrument) :
    own instrument.str (before.filter fun other ↦ other.instrument = instrument) =
      own instrument.str before := by
  unfold own
  rw [List.filter_filter]
  refine List.filter_congr fun other hother ↦ ?_
  by_cases hstr : other.str = instrument.str
  · simp [hstr, hdistinct other hother hstr]
  · simp [hstr]

/-- The fields of a tick at the start of 1970. -/
def sampleFields (instrument : Instrument) (price : Bytes) : List Bytes :=
  [ascii "q", instrument.comodity, instrument.contractNo, instrument.exchange,
    ascii "1970-01-01 00:00:00", ascii "q", ascii "q", ascii "q", ascii "q", ascii "q", price]

theorem isField_sampleFields {instrument : Instrument} (hnamed : instrument.Named) {price : Bytes}
    (hprice : IsField price) : ∀ text ∈ sampleFields instrument price, IsField text := by
  have hq : IsField (ascii "q") := by decide
  have htime : IsField (ascii "1970-01-01 00:00:00") := by decide
  simp only [sampleFields, List.forall_mem_cons, List.not_mem_nil, false_implies, implies_true,
    and_true]
  exact ⟨hq, hnamed.comodity, hnamed.contractNo, hnamed.exchange, htime, hq, hq, hq, hq, hq, hprice⟩

/-- The tick of the sample fields. -/
def sampleTick (instrument : Instrument) (newPrice : Double) : Tick Double :=
  ⟨instrument.comodity, instrument.contractNo, instrument.exchange,
    strToTimeT platform (ascii "1970-01-01 00:00:00"), newPrice⟩

theorem wellFormed_sampleTick {instrument : Instrument} (hnamed : instrument.Named) {price : Bytes}
    (hprice : IsField price) {newPrice : Double} (hstod : platform.stod price = some newPrice) :
    WellFormed platform (sampleTick platform instrument newPrice) :=
  ⟨sampleFields instrument price, isField_sampleFields hnamed hprice, Nat.le_refl _,
    parseTick_tickText platform (isField_sampleFields hnamed hprice) (Nat.le_refl _) hstod⟩

/-- The first tick of its names is its own base. -/
theorem basePrice_singleton (tick : Tick Double) (window : Window) :
    basePrice (windowsAfter [tick]) tick window = tick.newPrice := by
  have hqueue := queueOf_windowsAfter_concat [] tick window
  rw [List.nil_append] at hqueue
  rw [basePrice, hqueue]
  rfl

/-- At the same time and under the same names, the base price is that of the first tick. -/
theorem basePrice_of_same_time (first second : Tick Double) (hstr : first.str = second.str)
    (htime : first.tradeTime = second.tradeTime) (window : Window) :
    basePrice (windowsAfter ([first] ++ [second])) second window = first.newPrice := by
  have hown : own second.str [first] = [first] := List.filter_cons_of_pos (decide_eq_true hstr)
  have hyoung : ¬ expired window.seconds second.entry.1 first.entry = true := by
    rw [expired_iff, Tick.entry, Tick.entry, htime, sub_self]
    exact not_lt.mpr (seconds_nonneg window)
  rw [basePrice, queueOf_windowsAfter_concat, hown, window_concat, slide]
  change (((([first.entry]).dropWhile (expired window.seconds second.entry.1)) ++
    [second.entry]).headD second.entry).2 = first.newPrice
  rw [List.dropWhile_cons_of_neg hyoung]
  rfl

theorem basePrice_sampleTick {instrument other : Instrument} (hstr : other.str = instrument.str)
    (one two : Double) (window : Window) :
    basePrice
        (windowsAfter ([sampleTick platform other one] ++ [sampleTick platform instrument two]))
        (sampleTick platform instrument two) window = one :=
  basePrice_of_same_time (sampleTick platform other one) (sampleTick platform instrument two) hstr
    rfl window

/-- An instrument is isolated from others exactly when its names, one after the other, are not also
those of another one. -/
theorem isolated_iff {one two : Double} (hone : platform.stod (ascii "1") = some one)
    (htwo : platform.stod (ascii "2") = some two) (hprices : one ≠ two)
    (instrument : Instrument) (others : Set Instrument) (hnamed : instrument.Named)
    (hothers : ∀ other ∈ others, other.Named) :
    Isolated platform instrument others ↔
      ∀ other ∈ others, other ≠ instrument → other.str ≠ instrument.str := by
  constructor
  · intro hisolated other hother hne hstr
    have hfirst := wellFormed_sampleTick platform (hothers other hother) (by decide) hone
    have hsecond := wellFormed_sampleTick platform hnamed (by decide) htwo
    have hsame :=
      hisolated [sampleTick platform other one] (sampleTick platform instrument two) .one
        (List.forall_mem_singleton.mpr ⟨hfirst, .inr hother⟩) hsecond rfl
    rw [basePrice_sampleTick platform hstr] at hsame
    have hdiffers : (sampleTick platform other one).instrument ≠ instrument := hne
    have hleft : [sampleTick platform other one].filter
        (fun tick ↦ tick.instrument = instrument) = [] :=
      List.filter_cons_of_neg (by simpa using hdiffers)
    rw [hleft, List.nil_append, basePrice_singleton] at hsame
    exact hprices hsame
  · intro hdistinct before tick window hbefore _ htick
    apply basePrice_congr
    rw [← str_instrument, htick]
    refine (own_filter_instrument fun other hother hstr ↦ ?_).symm
    rcases (hbefore other hother).2 with hsame | hmem
    · exact hsame
    · by_contra hne
      exact hdistinct other.instrument hmem hne hstr

end Isolation

/-! ### Corn and corn starch -/

/-- A contract whose commodity is `"c"`. -/
def corn : Instrument := ⟨ascii "c", ascii "s2009", ascii "DCE"⟩

/-- A contract whose commodity is `"cs"`. -/
def starch : Instrument := ⟨ascii "cs", ascii "2009", ascii "DCE"⟩

theorem corn_named : corn.Named := ⟨by decide, by decide, by decide⟩

theorem starch_named : starch.Named := ⟨by decide, by decide, by decide⟩

theorem stod_one : Platform.exact.stod (ascii "1") = some 1 := by decide +kernel

theorem stod_two : Platform.exact.stod (ascii "2") = some 2 := by decide +kernel

theorem isolated_iff_corn :
    Isolated Platform.exact starch {corn} ↔
      ∀ other ∈ ({corn} : Set Instrument), other ≠ starch → other.str ≠ starch.str :=
  isolated_iff Platform.exact stod_one stod_two (by decide) starch {corn} starch_named
    fun _ hother ↦ hother ▸ corn_named

/-- Two ticks of different instruments at the same time: the base price of the second one is the
price of the first one, and without that tick it is its own. -/
theorem starch_priced_by_corn :
    ∃ first second : Tick ℚ, WellFormed Platform.exact first ∧ WellFormed Platform.exact second ∧
      first.instrument ≠ second.instrument ∧
      basePrice (windowsAfter [first, second]) second .one = 1 ∧
      basePrice (windowsAfter ([first, second].filter fun tick ↦
        tick.instrument = second.instrument)) second .one = 2 := by
  refine ⟨sampleTick .exact corn 1, sampleTick .exact starch 2,
    wellFormed_sampleTick _ corn_named (by decide) stod_one,
    wellFormed_sampleTick _ starch_named (by decide) stod_two, by decide, ?_, ?_⟩
  · have hstr : corn.str = starch.str := by decide
    exact basePrice_sampleTick .exact hstr 1 2 .one
  · have hleft : [sampleTick Platform.exact corn 1, sampleTick .exact starch 2].filter
        (fun tick ↦ tick.instrument = (sampleTick Platform.exact starch 2).instrument) =
          [sampleTick .exact starch 2] := by
      rw [List.filter_cons_of_neg (by decide), List.filter_cons_of_pos (by decide), List.filter_nil]
    rw [hleft, basePrice_singleton]
    rfl

end TradeServers.QuoteClient
