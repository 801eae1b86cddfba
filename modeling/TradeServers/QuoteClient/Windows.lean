import TradeServers.QuoteClient.Ticks
import TradeServers.Library.SlidingWindow

/-!
# The price windows of an instrument

`dealMessage` keeps, for every instrument, the prices of the last 60, 180 and 300 seconds, and
reports the change of the latest price against the oldest price of each window.
`window_of_history` says what the queues hold after any history of ticks. The queues of an
instrument are found under the concatenation of its three names, and `isolated_iff` says which
instruments share them because of that.
-/

set_option autoImplicit false
set_option relaxedAutoImplicit false

namespace TradeServers.QuoteClient

open SlidingWindow

/-! ### Queues -/

/-- The windows of one, three and five minutes. -/
inductive Window
  | one
  | three
  | five
deriving DecidableEq

/-- The width of a window in seconds. -/
def Window.seconds : Window → ℤ
  | .one => 60
  | .three => 180
  | .five => 300

/-- The digit at the end of the keys of a window. -/
def Window.digit : Window → UInt8
  | .one => 49
  | .three => 51
  | .five => 53

/-- `queueMap`: queues of trade times and prices. -/
abbrev QueueMap (Double : Type) : Type := Bytes → Option (List (ℤ × Double))

/-- The changes of the latest price against the three windows. -/
structure Changes (Double : Type) where
  change1 : Double
  change3 : Double
  change5 : Double

section Queues

variable {Double : Type}

/-- The names of the instrument, one after the other. -/
def Tick.str (tick : Tick Double) : Bytes := tick.comodity ++ tick.contractNo ++ tick.exchange

/-- `str1`, `str3` and `str5`. -/
def Tick.key (tick : Tick Double) (window : Window) : Bytes := tick.str ++ [window.digit]

/-- The pair that the queues hold for a tick. -/
def Tick.entry (tick : Tick Double) : ℤ × Double := (tick.tradeTime, tick.newPrice)

/-- `queueMap[key]`, which is empty for a new key. -/
def queueOf (queueMap : QueueMap Double) (key : Bytes) : List (ℤ × Double) :=
  (queueMap key).getD []

/-- `queueMap.insert` of an empty queue, which leaves a queue that is there. -/
def insertQueue (queueMap : QueueMap Double) (key : Bytes) : QueueMap Double :=
  if queueMap key = none then Function.update queueMap key (some []) else queueMap

/-- The queues of an instrument are created when the first of them is not there. -/
def createQueues (queueMap : QueueMap Double) (tick : Tick Double) : QueueMap Double :=
  if queueMap (tick.key .one) = none then
    insertQueue (insertQueue (insertQueue queueMap (tick.key .one)) (tick.key .three))
      (tick.key .five)
  else queueMap

/-- The loop that pops the queue of a window, and the push behind it. -/
def pushWindow (tick : Tick Double) (window : Window) (queueMap : QueueMap Double) :
    QueueMap Double :=
  Function.update queueMap (tick.key window)
    (some (slide window.seconds (queueOf queueMap (tick.key window)) tick.entry))

/-- `queueMap[key].front().second` after a tick was pushed, when the queue is not empty. -/
def basePrice (queueMap : QueueMap Double) (tick : Tick Double) (window : Window) : Double :=
  ((queueOf queueMap (tick.key window)).headD tick.entry).2

/-- The effect of a tick on the queues. -/
def pushTick (queueMap : QueueMap Double) (tick : Tick Double) : QueueMap Double :=
  pushWindow tick .five (pushWindow tick .three (pushWindow tick .one
    (createQueues queueMap tick)))

/-- The queues after a history of ticks. -/
def windowsAfter (ticks : List (Tick Double)) : QueueMap Double :=
  ticks.foldl pushTick fun _ ↦ none

variable (platform : Platform Double)

/-- The change of a price against the base of a window. A negative zero becomes a zero. -/
def change (newPrice base : Double) : Double :=
  let change := round platform
    (platform.mul (platform.div (platform.sub newPrice base) base) platform.hundred)
  if platform.isZero change then platform.zero else change

/-- The middle part of the body of `dealMessage`, under `mapMutex`. -/
def updateWindows (queueMap : QueueMap Double) (tick : Tick Double) :
    QueueMap Double × Changes Double :=
  let queueMap := createQueues queueMap tick
  let queueMap := pushWindow tick .one queueMap
  let change1 := change platform tick.newPrice (basePrice queueMap tick .one)
  let queueMap := pushWindow tick .three queueMap
  let change3 := change platform tick.newPrice (basePrice queueMap tick .three)
  let queueMap := pushWindow tick .five queueMap
  let change5 := change platform tick.newPrice (basePrice queueMap tick .five)
  (queueMap, ⟨change1, change3, change5⟩)

/-! ### What a tick does to the queues -/

variable {queueMap : QueueMap Double} {tick other : Tick Double} {window narrow wide : Window}

theorem digit_injective : Function.Injective Window.digit := by
  intro first second hdigit
  cases first <;> cases second <;> first | rfl | exact absurd hdigit (by decide)

/-- Keys are equal when the names together and the windows are. -/
theorem append_digit_eq_iff {first second : Bytes} :
    first ++ [narrow.digit] = second ++ [wide.digit] ↔ first = second ∧ narrow = wide := by
  constructor
  · intro heq
    obtain ⟨hstr, hdigit⟩ := List.append_inj' heq rfl
    exact ⟨hstr, digit_injective (List.singleton_inj.mp hdigit)⟩
  · rintro ⟨rfl, rfl⟩
    rfl

theorem queueOf_insertQueue (key searched : Bytes) :
    queueOf (insertQueue queueMap key) searched = queueOf queueMap searched := by
  unfold insertQueue
  split_ifs with hnew
  · by_cases hkey : searched = key
    · rw [hkey, queueOf, queueOf, Function.update_self, hnew]
      rfl
    · rw [queueOf, Function.update_of_ne hkey, queueOf]
  · rfl

@[simp] theorem queueOf_createQueues (searched : Bytes) :
    queueOf (createQueues queueMap tick) searched = queueOf queueMap searched := by
  unfold createQueues
  split_ifs
  · rw [queueOf_insertQueue, queueOf_insertQueue, queueOf_insertQueue]
  · rfl

/-- A push changes the queue of its own key. -/
theorem queueOf_pushWindow (str : Bytes) (searched : Window) :
    queueOf (pushWindow tick window queueMap) (str ++ [searched.digit]) =
      if str = tick.str ∧ searched = window then
        slide window.seconds (queueOf queueMap (str ++ [searched.digit])) tick.entry
      else queueOf queueMap (str ++ [searched.digit]) := by
  unfold pushWindow
  split_ifs with hkey
  · obtain ⟨rfl, rfl⟩ := hkey
    rw [queueOf, Tick.key, Function.update_self, Option.getD_some]
  · have hne : str ++ [searched.digit] ≠ tick.key window :=
      fun heq ↦ hkey (append_digit_eq_iff.mp heq)
    rw [queueOf, Function.update_of_ne hne, queueOf]

/-- A tick slides the three queues under its own names and leaves all others alone. -/
theorem queueOf_pushTick (str : Bytes) (searched : Window) :
    queueOf (pushTick queueMap tick) (str ++ [searched.digit]) =
      if str = tick.str then
        slide searched.seconds (queueOf queueMap (str ++ [searched.digit])) tick.entry
      else queueOf queueMap (str ++ [searched.digit]) := by
  unfold pushTick
  simp only [queueOf_pushWindow, queueOf_createQueues]
  cases searched <;> simp

/-- The changes are those against the bases in the queues that the tick leaves. -/
theorem updateWindows_eq (queueMap : QueueMap Double) (tick : Tick Double) :
    updateWindows platform queueMap tick =
      (pushTick queueMap tick,
        { change1 := change platform tick.newPrice (basePrice (pushTick queueMap tick) tick .one)
          change3 := change platform tick.newPrice (basePrice (pushTick queueMap tick) tick .three)
          change5 :=
            change platform tick.newPrice (basePrice (pushTick queueMap tick) tick .five) }) := by
  unfold updateWindows pushTick basePrice Tick.key
  simp only [queueOf_pushWindow, queueOf_createQueues, reduceCtorEq, and_false, and_self,
    if_true, if_false]

/-! ### The queues after a history -/

/-- The ticks whose prices are kept under the given names. -/
def own (str : Bytes) (ticks : List (Tick Double)) : List (Tick Double) :=
  ticks.filter fun tick ↦ tick.str = str

theorem windowsAfter_concat (ticks : List (Tick Double)) (tick : Tick Double) :
    windowsAfter (ticks ++ [tick]) = pushTick (windowsAfter ticks) tick := by
  unfold windowsAfter
  rw [List.foldl_append, List.foldl_cons, List.foldl_nil]

theorem own_concat (tick : Tick Double) (ticks : List (Tick Double)) :
    own tick.str (ticks ++ [tick]) = own tick.str ticks ++ [tick] := by
  have htick : [tick].filter (fun other ↦ other.str = tick.str) = [tick] :=
    List.filter_cons_of_pos (decide_eq_true rfl)
  rw [own, List.filter_append, htick, own]

/-- The queue of a key is the sliding window over the ticks of its names. -/
theorem queueOf_windowsAfter (ticks : List (Tick Double)) (str : Bytes) (window : Window) :
    queueOf (windowsAfter ticks) (str ++ [window.digit]) =
      SlidingWindow.window window.seconds ((own str ticks).map Tick.entry) := by
  induction ticks using List.reverseRecOn with
  | nil => rfl
  | append_singleton ticks tick ih =>
    rw [windowsAfter_concat, queueOf_pushTick, ih]
    split_ifs with hstr
    · rw [hstr, own_concat, List.map_append, List.map_singleton, window_concat]
    · have hother : own str (ticks ++ [tick]) = own str ticks := by
        unfold own
        rw [List.filter_append, List.filter_cons_of_neg (by simpa using Ne.symm hstr),
          List.filter_nil, List.append_nil]
      rw [hother]

theorem queueOf_windowsAfter_concat (before : List (Tick Double)) (tick : Tick Double)
    (window : Window) :
    queueOf (windowsAfter (before ++ [tick])) (tick.key window) =
      SlidingWindow.window window.seconds
        ((own tick.str before).map Tick.entry ++ [tick.entry]) := by
  rw [Tick.key, queueOf_windowsAfter, own_concat, List.map_append, List.map_singleton]

theorem seconds_nonneg (window : Window) : 0 ≤ window.seconds := by
  cases window <;> decide

/-- After a tick of any history the front of its queue is not older than the window, and the tick is
the last entry. The queue of a narrower window is a suffix of that of a wider one. -/
theorem window_of_history (before : List (Tick Double)) (tick : Tick Double) (window : Window) :
    (∃ front, (queueOf (windowsAfter (before ++ [tick])) (tick.key window)).head? = some front ∧
      tick.tradeTime - window.seconds ≤ front.1) ∧
    (queueOf (windowsAfter (before ++ [tick])) (tick.key window)).getLast? = some tick.entry := by
  rw [queueOf_windowsAfter_concat]
  refine ⟨?_, getLast?_window_concat _ _ _⟩
  cases hfront : (SlidingWindow.window window.seconds
      ((own tick.str before).map Tick.entry ++ [tick.entry])).head? with
  | none => exact absurd (List.head?_eq_none_iff.mp hfront) (window_concat_ne_nil _ _ _)
  | some front => exact ⟨front, rfl, le_of_head_window (seconds_nonneg window) hfront⟩

/-- The ticks of the same names that lie in the window that ends with a tick. -/
def inWindow (window : Window) (tick : Tick Double) (ticks : List (Tick Double)) :
    List (Tick Double) :=
  (own tick.str ticks).filter fun old ↦ tick.tradeTime - window.seconds ≤ old.tradeTime

/-- When the trade times do not decrease, the queue holds the ticks in the window. -/
theorem queue_eq_inWindow (before : List (Tick Double)) (tick : Tick Double) (window : Window)
    (hordered : (own tick.str (before ++ [tick])).Pairwise fun old new ↦
      old.tradeTime ≤ new.tradeTime) :
    queueOf (windowsAfter (before ++ [tick])) (tick.key window) =
      (inWindow window tick (before ++ [tick])).map Tick.entry := by
  have hentries : (own tick.str (before ++ [tick])).map Tick.entry =
      (own tick.str before).map Tick.entry ++ [tick.entry] := by
    rw [own_concat, List.map_append, List.map_singleton]
  have htimes : ((own tick.str before).map Tick.entry ++ [tick.entry]).Pairwise fun old new ↦
      old.1 ≤ new.1 := by
    rw [← hentries, List.pairwise_map]
    exact hordered
  rw [queueOf_windowsAfter_concat, window_eq_filter (seconds_nonneg window) htimes, ← hentries,
    List.filter_map]
  rfl

/-- The sliding windows of a history of ticks. Whatever the trade times are, after each tick the
front of the queue of a window is not older than the window, and the tick is the last entry. When
the trade times do not decrease, the queue holds exactly the ticks in the window, the base price is
that of the oldest one, and the queue of each window ends with those of the narrower windows. -/
theorem sliding_windows (before : List (Tick Double)) (tick : Tick Double) (window : Window) :
    (∃ front, (queueOf (windowsAfter (before ++ [tick])) (tick.key window)).head? = some front ∧
      tick.tradeTime - window.seconds ≤ front.1) ∧
    (queueOf (windowsAfter (before ++ [tick])) (tick.key window)).getLast? = some tick.entry ∧
    ((own tick.str (before ++ [tick])).Pairwise (fun old new ↦ old.tradeTime ≤ new.tradeTime) →
      queueOf (windowsAfter (before ++ [tick])) (tick.key window) =
          (inWindow window tick (before ++ [tick])).map Tick.entry ∧
        (∃ oldest, (inWindow window tick (before ++ [tick])).head? = some oldest ∧
          basePrice (windowsAfter (before ++ [tick])) tick window = oldest.newPrice) ∧
        queueOf (windowsAfter (before ++ [tick])) (tick.key .one) <:+
          queueOf (windowsAfter (before ++ [tick])) (tick.key .three) ∧
        queueOf (windowsAfter (before ++ [tick])) (tick.key .three) <:+
          queueOf (windowsAfter (before ++ [tick])) (tick.key .five)) := by
  obtain ⟨hfront, hlast⟩ := window_of_history before tick window
  refine ⟨hfront, hlast, fun hordered ↦ ?_⟩
  have hqueue := queue_eq_inWindow before tick window hordered
  refine ⟨hqueue, ?_, ?_, ?_⟩
  · obtain ⟨front, hhead, -⟩ := hfront
    rw [hqueue, List.head?_map] at hhead
    obtain ⟨oldest, holdest, rfl⟩ := Option.map_eq_some_iff.mp hhead
    refine ⟨oldest, holdest, ?_⟩
    rw [basePrice, hqueue, List.headD_eq_head?_getD, List.head?_map, holdest]
    rfl
  · rw [queueOf_windowsAfter_concat, queueOf_windowsAfter_concat]
    exact window_suffix_window (by decide) _
  · rw [queueOf_windowsAfter_concat, queueOf_windowsAfter_concat]
    exact window_suffix_window (by decide) _

end Queues

end TradeServers.QuoteClient
