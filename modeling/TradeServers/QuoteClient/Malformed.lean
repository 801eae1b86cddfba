import TradeServers.QuoteClient.Lines

/-!
# Bodies that are not ticks

`dealMessage` takes its fields by their indices from a vector that is filled with the tokens of the
body, converts one of them to a number, and reads its result back from a stream. It checks none of
this, and the vector and the stream live on from body to body. `bodies_survive_iff` says which
bodies the worker gets through with both of them empty again.

The tokens are what `strtok` finds between the bars, and it finds no empty ones. `columns_iff` says
which texts have their fields at their own indices.
-/

set_option autoImplicit false
set_option relaxedAutoImplicit false

namespace TradeServers.QuoteClient

open Execution

/-! ### A round for any body -/

/-- The local variables of `dealMessage` that live on from round to round: `strVec`, the unread part
of `ss`, and `resStr`. -/
structure Locals where
  strVec : List Bytes
  stream : Bytes
  resStr : Bytes

/-- The variables of the stream. -/
def Locals.worker (locals : Locals) : Worker := ⟨.idle, locals.stream, locals.resStr⟩

/-- The variables are as they were before the first round. -/
structure Locals.Restored (locals : Locals) : Prop where
  strVec : locals.strVec = []
  stream : locals.stream = []

section Rounds

variable {Double : Type} (platform : Platform Double)

/-- The body of the loop of `dealMessage` for a body that was popped, with `queueMap` as it finds
it: the variables it leaves, and the result. The tokens are appended to `strVec`, which is cleared
when the fields have been read. -/
def dealBody (locals : Locals) (queueMap : QueueMap Double) (itFront : Bytes) :
    Except Fault (Locals × ResStruct) :=
  (tickOf platform (locals.strVec ++ strtok bar itFront)).map fun tick ↦
    let changes := (updateWindows platform queueMap tick).2
    let read := locals.worker.readResult platform tick changes
    (⟨[], read.2, read.1⟩, locals.worker.res platform tick changes)

/-- The variables after a round. -/
def dealStep (locals : Locals) (round : QueueMap Double × Bytes) : Except Fault Locals :=
  (dealBody platform locals round.1 round.2).map Prod.fst

/-- The worker gets a result out of a body and restores its variables. -/
def Survives (locals : Locals) (round : QueueMap Double × Bytes) : Prop :=
  ∃ next res, dealBody platform locals round.1 round.2 = .ok (next, res) ∧ next.Restored

/-- The body has a price in its eleventh token, and its names contain no white space, except in
front of the first one. -/
structure Dealable (itFront : Bytes) : Prop where
  price : ∃ text newPrice, (strtok bar itFront)[10]? = some text ∧
    platform.stod (cString text) = some newPrice
  comodity : ∀ byte ∈ ((strtok bar itFront).getD 1 []).dropWhile isSpace, isSpace byte = false
  contractNo : ∀ byte ∈ (strtok bar itFront).getD 2 [], isSpace byte = false
  exchange : ∀ byte ∈ (strtok bar itFront).getD 3 [], isSpace byte = false

variable {platform} {locals : Locals}

/-- With nothing left in `strVec`, the fields are those of the tick. -/
theorem dealBody_eq_ok_iff (hrestored : locals.Restored) {queueMap : QueueMap Double}
    {itFront : Bytes} {next : Locals} {res : ResStruct} :
    dealBody platform locals queueMap itFront = .ok (next, res) ↔
      ∃ tick, parseTick platform itFront = .ok tick ∧
        let changes := (updateWindows platform queueMap tick).2
        let read := locals.worker.readResult platform tick changes
        next = ⟨[], read.2, read.1⟩ ∧ res = locals.worker.res platform tick changes := by
  have hparse : parseTick platform itFront = tickOf platform (strtok bar itFront) := rfl
  unfold dealBody
  rw [hrestored.strVec, List.nil_append, ← hparse]
  cases parseTick platform itFront with
  | error fault =>
    constructor
    · intro hdeal
      cases hdeal
    · rintro ⟨tick, htick, -⟩
      cases htick
  | ok tick =>
    constructor
    · intro hdeal
      obtain ⟨hnext, hres⟩ := Prod.mk.inj (Except.ok.inj hdeal)
      exact ⟨tick, rfl, hnext.symm, hres.symm⟩
    · rintro ⟨other, hother, rfl, rfl⟩
      obtain rfl := Except.ok.inj hother
      rfl

/-! ### What is left in the stream -/

/-- Reading a word empties a stream when there is no white space behind its start. -/
theorem readWord_empties_iff {stream previous : Bytes} : (readWord stream previous).2 = [] ↔
    ∀ byte ∈ stream.dropWhile isSpace, isSpace byte = false := by
  unfold readWord
  dsimp only
  by_cases hnone : stream.dropWhile isSpace = []
  · rw [if_pos hnone, hnone]
    exact iff_of_true rfl (List.forall_mem_nil _)
  · rw [if_neg hnone, List.dropWhile_eq_nil_iff]
    simp only [Bool.not_eq_true']

theorem dropWhile_append_bar (text rest : Bytes) :
    (text ++ bar :: rest).dropWhile isSpace = text.dropWhile isSpace ++ bar :: rest := by
  have hbar : ¬ isSpace bar = true := by decide
  rw [List.dropWhile_append, List.dropWhile_cons_of_neg hbar]
  by_cases hblank : text.dropWhile isSpace = []
  · rw [hblank]
    rfl
  · rw [if_neg (by simpa using hblank)]

/-- White space at the start of a line can only be that of its first name. -/
theorem dropWhile_resLine (tick : Tick Double) (changes : Changes Double) :
    (resLine platform tick changes).dropWhile isSpace =
      resLine platform { tick with comodity := tick.comodity.dropWhile isSpace } changes := by
  unfold resLine
  simp only [List.append_assoc, List.cons_append, List.nil_append, dropWhile_append_bar]

/-- The stream is empty behind a line exactly when its names contain no white space, except in front
of the first one. -/
theorem readResult_empties_iff
    (hgeneral : ∀ number, ∀ byte ∈ platform.general number, isSpace byte = false)
    (hrestored : locals.Restored) (tick : Tick Double) (changes : Changes Double) :
    (locals.worker.readResult platform tick changes).2 = [] ↔
      (∀ byte ∈ tick.comodity.dropWhile isSpace, isSpace byte = false) ∧
        (∀ byte ∈ tick.contractNo, isSpace byte = false) ∧
          ∀ byte ∈ tick.exchange, isSpace byte = false := by
  have hbar : isSpace bar = false := by decide
  have hstream : locals.worker.stream = [] := hrestored.stream
  unfold Worker.readResult
  rw [hstream, List.nil_append, readWord_empties_iff, dropWhile_resLine]
  unfold resLine
  simp only [List.forall_mem_append, List.forall_mem_singleton, hbar, and_true]
  exact ⟨fun hall ↦ ⟨hall.1.1.1.1.1, hall.1.1.1.1.2, hall.1.1.1.2⟩, fun hnames ↦
    ⟨⟨⟨⟨⟨hnames.1, hnames.2.1⟩, hnames.2.2⟩, hgeneral _⟩, hgeneral _⟩, hgeneral _⟩⟩

/-! ### Which bodies survive -/

/-- From restored variables, a body survives exactly when it can be dealt with. -/
theorem survives_iff (hgeneral : ∀ number, ∀ byte ∈ platform.general number, isSpace byte = false)
    (hrestored : locals.Restored) (round : QueueMap Double × Bytes) :
    Survives platform locals round ↔ Dealable platform round.2 := by
  have hgetD : ∀ {index : ℕ} {text : Bytes}, (strtok bar round.2)[index]? = some text →
      (strtok bar round.2).getD index [] = text := by
    intro index text htext
    rw [List.getD_eq_getElem?_getD, htext, Option.getD_some]
  constructor
  · rintro ⟨next, res, hdeal, hnext⟩
    obtain ⟨tick, hparse, rfl, rfl⟩ := (dealBody_eq_ok_iff hrestored).mp hdeal
    obtain ⟨hcomodity, hcontractNo, hexchange⟩ :=
      (readResult_empties_iff hgeneral hrestored tick _).mp hnext.stream
    obtain ⟨_, price, hone, htwo, hthree, -, hten, -, hstod⟩ :=
      (parseTick_eq_ok_iff platform).mp hparse
    exact ⟨⟨price, _, hten, hstod⟩, hgetD hone ▸ hcomodity, hgetD htwo ▸ hcontractNo,
      hgetD hthree ▸ hexchange⟩
  · rintro ⟨⟨price, newPrice, hten, hstod⟩, hcomodity, hcontractNo, hexchange⟩
    obtain ⟨hlength, -⟩ := List.getElem?_eq_some_iff.mp hten
    have hat : ∀ {index : ℕ}, index < 10 → (strtok bar round.2)[index]? =
        some ((strtok bar round.2).getD index []) := by
      intro index hindex
      rw [List.getD_eq_getElem?_getD, List.getElem?_eq_getElem (by omega), Option.getD_some]
    let tick : Tick Double :=
      ⟨(strtok bar round.2).getD 1 [], (strtok bar round.2).getD 2 [],
        (strtok bar round.2).getD 3 [],
        strToTimeT platform ((strtok bar round.2).getD 4 []), newPrice⟩
    have hparse : parseTick platform round.2 = .ok tick :=
      (parseTick_eq_ok_iff platform).mpr ⟨_, price, hat (by decide), hat (by decide),
        hat (by decide), hat (by decide), hten, rfl, hstod⟩
    have hempty := (readResult_empties_iff hgeneral hrestored tick
      (updateWindows platform round.1 tick).2).mpr ⟨hcomodity, hcontractNo, hexchange⟩
    exact ⟨_, _, (dealBody_eq_ok_iff hrestored).mpr ⟨tick, hparse, rfl, rfl⟩, rfl, hempty⟩

/-- A worker gets through any bodies, with its variables restored after each of them, exactly when
each body can be dealt with. -/
theorem bodies_survive_iff
    (hgeneral : ∀ number, ∀ byte ∈ platform.general number, isSpace byte = false)
    (hrestored : locals.Restored) (rounds : List (QueueMap Double × Bytes)) :
    Guarded (dealStep platform) (Survives platform) locals rounds ↔
      ∀ round ∈ rounds, Dealable platform round.2 := by
  refine guarded_iff_forall_mem (fun _ round hempty ↦ survives_iff hgeneral hempty round)
    (fun locals round hempty hdealable ↦ ?_) hrestored
  obtain ⟨next, res, hdeal, hnext⟩ := (survives_iff hgeneral hempty round).mpr hdealable
  refine ⟨next, ?_, hnext⟩
  rw [dealStep, hdeal]
  rfl

end Rounds

/-! ### Columns -/

section Columns

variable {fields : List Bytes}

/-- Every field is found at its own index exactly when none is empty: an empty one moves all fields
behind it to the front. -/
theorem columns_iff (hunbarred : ∀ text ∈ fields, bar ∉ text) (hnul : ∀ text ∈ fields, 0 ∉ text) :
    (∀ (index : ℕ) (hindex : index < fields.length),
      (strtok bar (tickText fields))[index]? = some fields[index]) ↔
        ∀ text ∈ fields, text ≠ [] := by
  rw [strtok_tickText_eq_filter hunbarred hnul]
  constructor
  · intro hcolumns
    have hsame : fields.filter (· ≠ []) = fields := by
      refine List.filter_sublist.eq_of_length_le ?_
      by_contra hshort
      have hlast := hcolumns (fields.filter (· ≠ [])).length (by omega)
      rw [List.getElem?_eq_none (Nat.le_refl _)] at hlast
      cases hlast
    exact fun text htext ↦ of_decide_eq_true (List.filter_eq_self.mp hsame text htext)
  · intro hfields index hindex
    rw [List.filter_eq_self.mpr fun text htext ↦ decide_eq_true (hfields text htext)]
    exact List.getElem?_eq_getElem hindex

/-- A tick of corn with a text as its trade time. -/
def cornFields (tradeTime : Bytes) : List Bytes :=
  [ascii "q", ascii "c", ascii "s2009", ascii "DCE", tradeTime, ascii "q", ascii "q", ascii "q",
    ascii "q", ascii "q", ascii "7", ascii "8"]

/-- In a complete tick the trade time and the price are found. -/
theorem columns_of_corn :
    (strtok bar (tickText (cornFields (ascii "09:00"))))[4]? = some (ascii "09:00") ∧
      (strtok bar (tickText (cornFields (ascii "09:00"))))[10]? = some (ascii "7") := by
  have hfields : ∀ text ∈ cornFields (ascii "09:00"), text ≠ [] := by decide
  have hcolumns := (columns_iff (by decide) (by decide)).mpr hfields
  exact ⟨hcolumns 4 (by decide), hcolumns 10 (by decide)⟩

/-- Without a trade time, the next field is taken for it, and the field behind the price for the
price. -/
theorem empty_field_moves_columns :
    (strtok bar (tickText (cornFields [])))[4]? = some (ascii "q") ∧
      (strtok bar (tickText (cornFields [])))[10]? = some (ascii "8") ∧
      ¬ ∀ (index : ℕ) (hindex : index < (cornFields []).length),
        (strtok bar (tickText (cornFields [])))[index]? = some (cornFields [])[index] := by
  have hprice : (strtok bar (tickText (cornFields [])))[10]? = some (ascii "8") := rfl
  refine ⟨rfl, hprice, fun hcolumns ↦ ?_⟩
  have hown := hcolumns 10 (by decide)
  rw [hprice] at hown
  revert hown
  decide

end Columns

/-- The variables before the first round. -/
def Locals.start : Locals := ⟨[], [], []⟩

/-- The tick of corn survives. -/
theorem cornTick_survives : Guarded (dealStep Platform.exact) (Survives Platform.exact) .start
    [(fun _ ↦ none, cornTick), (fun _ ↦ none, cornTick)] := by
  have hdealable : Dealable Platform.exact cornTick := by
    obtain ⟨tick, hparse⟩ := parse_cornTick
    obtain ⟨_, price, -, -, -, -, hten, -, hstod⟩ := (parseTick_eq_ok_iff _).mp hparse
    exact ⟨⟨price, _, hten, hstod⟩, by decide +kernel, by decide +kernel, by decide +kernel⟩
  refine (bodies_survive_iff general_exact_unspaced ⟨rfl, rfl⟩ _).mpr ?_
  simp [hdealable]

/-- A quote of two fields makes the worker read behind the end of `strVec`, a price that is no
number makes it throw, and white space in a name stays in the stream. -/
theorem bodies_not_survived :
    quoteOf (quoteMessage (ascii "a|b")) = some (ascii "a|b") ∧
      dealBody Platform.exact .start (fun _ ↦ none) (ascii "a|b") = .error (.outOfRange 2) ∧
      dealBody Platform.exact .start (fun _ ↦ none) (ascii "q|c|s|D|t|q|q|q|q|q|x") =
        .error .stod ∧
      (dealBody Platform.exact .start (fun _ ↦ none) (ascii "q|c|s 1|D|t|q|q|q|q|q|1")).toOption.map
        (fun outcome ↦ outcome.1.stream.head?) = some (some space) ∧
      ¬ Guarded (dealStep Platform.exact) (Survives Platform.exact) .start
        [(fun _ ↦ none, ascii "a|b")] := by
  have hshort : dealBody Platform.exact .start (fun _ ↦ none) (ascii "a|b") =
      .error (.outOfRange 2) := rfl
  refine ⟨quoteOf_quoteMessage _, hshort, rfl, by decide +kernel, ?_⟩
  rintro ⟨⟨next, res, hdeal, -⟩, -⟩
  rw [hshort] at hdeal
  cases hdeal

end TradeServers.QuoteClient
