import TradeServers.QuoteClient.Pipeline

/-!
# The lines of the results

A worker writes the line of each result to one `stringstream`, which lives as long as the worker,
and takes it back as a word. White space in a line therefore ends its result early, and what is left
of the line goes in front of the next one. `results_own_lines_iff` says for which ticks every result
has the line of its own tick.
-/

set_option autoImplicit false
set_option relaxedAutoImplicit false

namespace TradeServers.QuoteClient

/-! ### Fields that may contain NUL -/

section Fields

variable {text rest : Bytes} {fields : List Bytes}

/-- The first field is cut off when it does not end the C string. -/
theorem strtok_append_bar (htext : IsField text) (rest : Bytes) :
    strtok bar (text ++ bar :: rest) = text :: strtok bar rest := by
  have hnul : ∀ byte ∈ text, decide (byte ≠ 0) = true := fun byte hbyte ↦
    decide_eq_true (ne_of_mem_of_not_mem hbyte htext.nul)
  have hcString : cString (text ++ bar :: rest) = text ++ bar :: cString rest := by
    unfold cString
    rw [List.takeWhile_append_of_pos hnul, List.takeWhile_cons_of_pos (by decide)]
  unfold strtok
  rw [hcString, List.splitOn_append_cons_self_of_not_mem htext.unbarred,
    List.filter_cons_of_pos (by simpa using htext.nonempty)]

/-- Without a bar in front of its NUL, a text has at most one field. -/
theorem strtok_of_nul (hunbarred : bar ∉ text) (hnul : 0 ∈ text) (rest : Bytes) :
    strtok bar (text ++ rest) = [cString text].filter (· ≠ []) := by
  have hcut : bar ∉ cString text := fun hmem ↦
    hunbarred ((List.takeWhile_sublist _).subset hmem)
  rw [strtok, cString_append_of_nul hnul, List.splitOn_eq_singleton hcut]

theorem tickText_cons (text : Bytes) (fields : List Bytes) :
    ∃ rest, tickText (text :: fields) = text ++ rest := by
  unfold tickText
  by_cases hlast : fields = []
  · exact ⟨[], by rw [hlast, List.intercalate_singleton, List.append_nil]⟩
  · exact ⟨[bar] ++ [bar].intercalate fields, by
      rw [List.intercalate_cons_of_ne_nil hlast, List.append_assoc]⟩

/-- The fields in front of a field are found when none of them has a NUL. -/
theorem strtok_tickText_take {index : ℕ} (hindex : index < fields.length)
    (hbefore : ∀ text ∈ fields.take index, IsField text) :
    strtok bar (tickText fields) =
      fields.take index ++ strtok bar (tickText (fields.drop index)) := by
  induction index generalizing fields with
  | zero => rfl
  | succ index ih =>
    cases fields with
    | nil => exact absurd hindex (Nat.not_lt_zero _)
    | cons text fields =>
      rw [List.take_succ_cons, List.forall_mem_cons] at hbefore
      have hmore : fields ≠ [] := by
        rintro rfl
        exact absurd (Nat.lt_of_succ_lt_succ hindex) (Nat.not_lt_zero _)
      have hhead : tickText (text :: fields) = text ++ bar :: tickText fields := by
        unfold tickText
        rw [List.intercalate_cons_of_ne_nil hmore, List.append_assoc]
        rfl
      rw [hhead, strtok_append_bar hbefore.1,
        ih (Nat.lt_of_succ_lt_succ hindex) hbefore.2]
      rfl

/-- A NUL in a field hides the fields behind it. -/
theorem length_strtok_le {index : ℕ} (hindex : index < fields.length)
    (hfields : ∀ text ∈ fields, text ≠ [] ∧ bar ∉ text) (hnul : 0 ∈ fields[index]) :
    (strtok bar (tickText fields)).length ≤ index + 1 := by
  induction index generalizing fields with
  | zero =>
    cases fields with
    | nil => exact absurd hindex (Nat.not_lt_zero _)
    | cons text fields =>
      obtain ⟨rest, hrest⟩ := tickText_cons text fields
      rw [hrest, strtok_of_nul (hfields text List.mem_cons_self).2 hnul]
      exact List.length_filter_le _ _
  | succ index ih =>
    cases fields with
    | nil => exact absurd hindex (Nat.not_lt_zero _)
    | cons text fields =>
      obtain ⟨htext, hlater⟩ := List.forall_mem_cons.mp hfields
      by_cases hnow : 0 ∈ text
      · obtain ⟨rest, hrest⟩ := tickText_cons text fields
        rw [hrest, strtok_of_nul htext.2 hnow]
        exact (List.length_filter_le _ _).trans (Nat.succ_le_succ (Nat.zero_le _))
      · have hone : ∀ other ∈ (text :: fields).take 1, IsField other :=
          List.forall_mem_singleton.mpr ⟨htext.1, htext.2, hnow⟩
        have hlength : 1 < (text :: fields).length := by
          rw [List.length_cons] at hindex ⊢
          omega
        rw [strtok_tickText_take hlength hone]
        exact Nat.succ_le_succ (ih (Nat.lt_of_succ_lt_succ hindex) hlater hnul)

end Fields

section Lines

variable {Double : Type} (platform : Platform Double)

/-- The text of a tick: at least eleven nonempty fields between bars, the eleventh of which is a
price. -/
structure TickText where
  fields : List Bytes
  long : 11 ≤ fields.length
  separate : ∀ text ∈ fields, text ≠ [] ∧ bar ∉ text
  newPrice : Double
  price_ne : cString fields[10] ≠ []
  priced : platform.stod (cString fields[10]) = some newPrice

variable {platform}

/-- The tick that the fields describe. -/
def TickText.tick (text : TickText platform) : Tick Double :=
  have hlong := text.long
  ⟨text.fields[1], text.fields[2], text.fields[3], strToTimeT platform text.fields[4],
    text.newPrice⟩

/-- The names contain no white space. -/
def Tick.Unspaced (tick : Tick Double) : Prop :=
  ∀ byte ∈ tick.comodity ++ tick.contractNo ++ tick.exchange, isSpace byte = false

/-- No NUL hides a field in front of the price, and the names contain no white space. -/
structure TickText.Plain (text : TickText platform) : Prop where
  nul : ∀ field ∈ text.fields.take 10, 0 ∉ field
  unspaced : text.tick.Unspaced

/-- The first field of a text, cut at its NUL. -/
theorem head_strtok_tickText {text : Bytes} {fields : List Bytes} (hcut : cString text ≠ [])
    (hunbarred : bar ∉ text) :
    (strtok bar (tickText (text :: fields))).head? = some (cString text) := by
  have hkeep : [cString text].filter (· ≠ []) = [cString text] :=
    List.filter_cons_of_pos (by simpa using hcut)
  by_cases hnul : 0 ∈ text
  · obtain ⟨rest, hrest⟩ := tickText_cons text fields
    rw [hrest, strtok_of_nul hunbarred hnul, hkeep]
    rfl
  · have hwhole := cString_eq_of_nul hnul
    have htext : IsField text := ⟨hwhole ▸ hcut, hunbarred, hnul⟩
    rw [hwhole]
    unfold tickText
    by_cases hlast : fields = []
    · have hone : strtok bar ([bar].intercalate [text]) = [text] :=
        strtok_tickText (List.forall_mem_singleton.mpr htext)
      rw [hlast, hone]
      rfl
    · rw [List.intercalate_cons_of_ne_nil hlast, List.append_assoc]
      exact congrArg List.head? (strtok_append_bar htext ([bar].intercalate fields))

/-- The tick is found when no NUL hides a field. -/
theorem TickText.parse_of_nul (text : TickText platform)
    (hnul : ∀ field ∈ text.fields.take 10, 0 ∉ field) :
    parseTick platform (tickText text.fields) = .ok text.tick := by
  have hlong := text.long
  have hbefore : ∀ field ∈ text.fields.take 10, IsField field := fun field hfield ↦
    have hseparate := text.separate field (List.mem_of_mem_take hfield)
    ⟨hseparate.1, hseparate.2, hnul field hfield⟩
  have hstrtok := strtok_tickText_take (by omega) hbefore
  have hearly {index : ℕ} (hindex : index < 10) :
      (strtok bar (tickText text.fields))[index]? = text.fields[index]? := by
    rw [hstrtok, List.getElem?_append_left (by rw [List.length_take]; omega),
      List.getElem?_take_of_lt hindex]
  have hprice : (strtok bar (tickText text.fields))[10]? = some (cString text.fields[10]) := by
    have hdrop : text.fields.drop 10 = text.fields[10] :: text.fields.drop 11 :=
      List.drop_eq_getElem_cons (by omega)
    have hunbarred := (text.separate text.fields[10] (List.getElem_mem _)).2
    rw [hstrtok, List.getElem?_append_right (by rw [List.length_take]; omega), List.length_take,
      Nat.min_eq_left (by omega), Nat.sub_self, ← List.head?_eq_getElem?, hdrop]
    exact head_strtok_tickText text.price_ne hunbarred
  have hcut : cString (cString text.fields[10]) = cString text.fields[10] :=
    cString_eq_of_nul (nul_not_mem_cString _)
  refine parseTick_eq_ok_iff platform |>.mpr ⟨text.fields[4], cString text.fields[10], ?_, ?_, ?_,
    ?_, hprice, rfl, by rw [hcut]; exact text.priced⟩
  all_goals
    rw [hearly (by decide)]
    exact List.getElem?_eq_getElem _

/-- Only then is a tick found. -/
theorem TickText.nul_of_parse (text : TickText platform) {tick : Tick Double}
    (hparse : parseTick platform (tickText text.fields) = .ok tick) :
    ∀ field ∈ text.fields.take 10, 0 ∉ field := by
  intro field hfield hnul
  obtain ⟨index, hindex, rfl⟩ := List.mem_iff_getElem.mp hfield
  have hlong := text.long
  rw [List.length_take] at hindex
  rw [List.getElem_take] at hnul
  have hshort := length_strtok_le (by omega) text.separate hnul
  obtain ⟨_, newPrice, -, -, -, -, hprice, -, -⟩ := parseTick_eq_ok_iff platform |>.mp hparse
  obtain ⟨htenth, -⟩ := List.getElem?_eq_some_iff.mp hprice
  omega

/-! ### Words of the stream -/

/-- A line without white space is taken out of the empty stream as a whole. -/
theorem readWord_of_unspaced {line : Bytes} (hne : line ≠ [])
    (hline : ∀ byte ∈ line, isSpace byte = false) (previous : Bytes) :
    readWord line previous = (line, []) := by
  have hkeep : line.dropWhile isSpace = line := by
    obtain ⟨byte, rest, rfl⟩ := List.exists_cons_of_ne_nil hne
    exact List.dropWhile_cons_of_neg (by simp [hline byte List.mem_cons_self])
  have hall : ∀ byte ∈ line, (!isSpace byte) = true := by
    intro byte hbyte
    rw [hline byte hbyte]
    rfl
  unfold readWord
  dsimp only
  rw [hkeep, if_neg hne, List.takeWhile_eq_self_iff.mpr hall, List.dropWhile_eq_nil_iff.mpr hall]

/-- A line that is taken out of the stream as a whole contains no white space, if it is not
blank. -/
theorem unspaced_of_readWord {line previous : Bytes} (hblank : ∃ byte ∈ line, isSpace byte = false)
    (hword : (readWord line previous).1 = line) : ∀ byte ∈ line, isSpace byte = false := by
  have hne : line.dropWhile isSpace ≠ [] := by
    obtain ⟨byte, hmem, hbyte⟩ := hblank
    intro hnone
    rw [List.dropWhile_eq_nil_iff] at hnone
    rw [hnone byte hmem] at hbyte
    cases hbyte
  unfold readWord at hword
  dsimp only at hword
  rw [if_neg hne] at hword
  intro byte hbyte
  rw [← hword] at hbyte
  simpa using List.mem_takeWhile_imp hbyte

/-! ### The rounds of a worker -/

/-- A round of `dealMessage`: the tick that the worker pops, and `queueMap` as it finds it, since
other workers may have changed it in between. -/
structure Round (platform : Platform Double) where
  text : TickText platform
  queueMap : QueueMap Double

/-- The changes that are computed in a round. -/
def Round.changes (round : Round platform) : Changes Double :=
  (updateWindows platform round.queueMap round.text.tick).2

/-- The line of the tick of a round. -/
def Round.line (round : Round platform) : Bytes :=
  resLine platform round.text.tick round.changes

/-- The worker and the result that it queues after a round. -/
def Worker.round (worker : Worker) (round : Round platform) : Except Fault (Worker × ResStruct) :=
  (parseTick platform (tickText round.text.fields)).map fun tick ↦
    let changes := (updateWindows platform round.queueMap tick).2
    ({ worker.makeResult platform (tickText round.text.fields) tick changes with phase := .idle },
      worker.res platform tick changes)

/-- The results of the rounds of a worker. -/
def Worker.results : Worker → List (Round platform) → Except Fault (List ResStruct)
  | _, [] => .ok []
  | worker, round :: rounds =>
    match worker.round round with
    | .error fault => .error fault
    | .ok (next, res) => (next.results rounds).map (res :: ·)

/-- A worker before its first round. -/
def Worker.start : Worker := ⟨.idle, [], []⟩

/-- The worker deals with all ticks, and every result has the line of its own tick. -/
def OwnLines (worker : Worker) (rounds : List (Round platform)) : Prop :=
  ∃ results, worker.results rounds = .ok results ∧
    results.map ResStruct.resStr = rounds.map Round.line

variable {worker next : Worker} {round : Round platform} {res : ResStruct}

theorem bar_mem_line (round : Round platform) : ∃ byte ∈ round.line, isSpace byte = false := by
  refine ⟨bar, ?_, by decide⟩
  unfold Round.line resLine
  simp

/-- The line contains white space where the names do, since written numbers contain none. -/
theorem line_unspaced_iff
    (hgeneral : ∀ number, ∀ byte ∈ platform.general number, isSpace byte = false)
    (round : Round platform) :
    (∀ byte ∈ round.line, isSpace byte = false) ↔ round.text.tick.Unspaced := by
  have hbar : isSpace bar = false := by decide
  unfold Round.line resLine Tick.Unspaced
  simp only [List.forall_mem_append, List.forall_mem_singleton, hbar, and_true]
  exact ⟨fun hall ↦ hall.1.1.1,
    fun hnames ↦ ⟨⟨⟨hnames, hgeneral _⟩, hgeneral _⟩, hgeneral _⟩⟩

/-- From an empty stream, a plain tick gives its own line and leaves the stream empty. -/
theorem round_of_plain
    (hgeneral : ∀ number, ∀ byte ∈ platform.general number, isSpace byte = false)
    (hstream : worker.stream = []) (hplain : round.text.Plain) :
    ∃ next res, worker.round round = .ok (next, res) ∧ next.stream = [] ∧
      res.resStr = round.line := by
  have hread : worker.readResult platform round.text.tick round.changes = (round.line, []) := by
    have hunspaced := (line_unspaced_iff hgeneral round).mpr hplain.unspaced
    obtain ⟨byte, hmem, -⟩ := bar_mem_line round
    unfold Worker.readResult
    rw [hstream, List.nil_append]
    exact readWord_of_unspaced (List.ne_nil_of_mem hmem) hunspaced _
  unfold Worker.round
  rw [round.text.parse_of_nul hplain.nul]
  exact ⟨_, _, rfl, congrArg Prod.snd hread, congrArg Prod.fst hread⟩

/-- Only a plain tick gives its own line. -/
theorem plain_of_round
    (hgeneral : ∀ number, ∀ byte ∈ platform.general number, isSpace byte = false)
    (hstream : worker.stream = []) (hround : worker.round round = .ok (next, res))
    (hline : res.resStr = round.line) : round.text.Plain := by
  unfold Worker.round at hround
  cases hparse : parseTick platform (tickText round.text.fields) with
  | error fault =>
    rw [hparse] at hround
    cases hround
  | ok tick =>
    have hnul := round.text.nul_of_parse hparse
    rw [round.text.parse_of_nul hnul] at hround
    obtain ⟨-, rfl⟩ := Prod.mk.inj (Except.ok.inj hround)
    refine ⟨hnul, (line_unspaced_iff hgeneral round).mp ?_⟩
    change (readWord (worker.stream ++ round.line) worker.resStr).1 = round.line at hline
    rw [hstream, List.nil_append] at hline
    exact unspaced_of_readWord (bar_mem_line round) hline

/-- A round of the pipeline is a round of its worker. -/
theorem round_of_pipeline {state : State Double} {worker : ℕ} {next : Worker}
    (hphase : (state.workers worker).phase = .popped (tickText round.text.fields))
    (hmap : state.mapMutex = none) (hsender : state.sender = .idle)
    (hqueueMap : state.queueMap = round.queueMap)
    (hround : (state.workers worker).round round = .ok (next, res)) :
    ∃ updated, state.updateWindows platform worker = .ok updated ∧
      (updated.pushResult worker).workers worker = next ∧
      (updated.pushResult worker).resQue = state.resQue ++ [res] := by
  unfold Worker.round at hround
  cases hparse : parseTick platform (tickText round.text.fields) with
  | error fault =>
    rw [hparse] at hround
    cases hround
  | ok tick =>
    rw [hparse, ← hqueueMap] at hround
    obtain ⟨rfl, rfl⟩ := Prod.mk.inj (Except.ok.inj hround)
    refine ⟨state.update platform worker (tickText round.text.fields) tick, ?_, ?_⟩
    · unfold State.updateWindows
      rw [hphase]
      dsimp only
      rw [hparse]
      exact if_pos hmap
    · have hworker :
          (state.update platform worker (tickText round.text.fields) tick).workers worker =
          (state.workers worker).makeResult platform (tickText round.text.fields) tick
            (updateWindows platform state.queueMap tick).2 := Function.update_self _ _ _
      unfold State.pushResult
      rw [hworker]
      dsimp only [Worker.makeResult]
      rw [if_pos (show (state.update platform worker _ tick).sender = .idle from hsender)]
      refine ⟨?_, rfl⟩
      change Function.update _ worker _ worker = _
      rw [Function.update_self, hworker]
      rfl

theorem ownLines_cons {rounds : List (Round platform)} :
    OwnLines worker (round :: rounds) ↔
      ∃ next res, worker.round round = .ok (next, res) ∧ res.resStr = round.line ∧
        OwnLines next rounds := by
  unfold OwnLines
  rw [Worker.results]
  constructor
  · rintro ⟨results, hresults, hlines⟩
    cases hround : worker.round round with
    | error fault =>
      rw [hround] at hresults
      cases hresults
    | ok outcome =>
      obtain ⟨next, res⟩ := outcome
      rw [hround] at hresults
      dsimp only at hresults
      cases hlater : next.results rounds with
      | error fault =>
        rw [hlater] at hresults
        cases hresults
      | ok later =>
        rw [hlater] at hresults
        obtain rfl := Except.ok.inj hresults
        obtain ⟨hline, hrest⟩ := List.cons_eq_cons.mp hlines
        exact ⟨next, res, rfl, hline, later, hlater, hrest⟩
  · rintro ⟨next, res, hround, hline, later, hlater, hrest⟩
    refine ⟨res :: later, ?_, congrArg₂ List.cons hline hrest⟩
    rw [hround]
    dsimp only
    rw [hlater]
    rfl

/-- Every result of a worker has the line of its own tick exactly when all its ticks are plain. The
invariant between the rounds is that nothing is left in the stream. -/
theorem ownLines_iff
    (hgeneral : ∀ number, ∀ byte ∈ platform.general number, isSpace byte = false)
    (rounds : List (Round platform)) :
    ∀ worker : Worker, worker.stream = [] →
      (OwnLines worker rounds ↔ ∀ round ∈ rounds, round.text.Plain) := by
  induction rounds with
  | nil => exact fun worker _ ↦ ⟨fun _ ↦ List.forall_mem_nil _, fun _ ↦ ⟨[], rfl, rfl⟩⟩
  | cons round rounds ih =>
    intro worker hstream
    rw [ownLines_cons, List.forall_mem_cons]
    constructor
    · rintro ⟨next, res, hround, hline, hlater⟩
      have hplain := plain_of_round hgeneral hstream hround hline
      obtain ⟨other, _, hother, hempty, -⟩ := round_of_plain hgeneral hstream hplain
      obtain ⟨rfl, -⟩ := Prod.mk.inj (Except.ok.inj (hround.symm.trans hother))
      exact ⟨hplain, (ih next hempty).mp hlater⟩
    · rintro ⟨hplain, hrest⟩
      obtain ⟨next, res, hround, hempty, hline⟩ := round_of_plain hgeneral hstream hplain
      exact ⟨next, res, hround, hline, (ih next hempty).mpr hrest⟩

/-- For any ticks that a worker deals with, every result has the line of its own tick exactly when
no field in front of a price contains a NUL and no name contains white space. -/
theorem results_own_lines_iff
    (hgeneral : ∀ number, ∀ byte ∈ platform.general number, isSpace byte = false)
    (rounds : List (Round platform)) :
    OwnLines Worker.start rounds ↔ ∀ round ∈ rounds, round.text.Plain :=
  ownLines_iff hgeneral rounds Worker.start rfl

end Lines

/-! ### Written numbers -/

theorem isSpace_natText {number : ℕ} {byte : UInt8} (hbyte : byte ∈ DecimalText.natText number) :
    isSpace byte = false := by
  obtain ⟨hlow, hhigh⟩ := DecimalText.mem_natText hbyte
  have hne : byte ≠ 32 := by
    rintro rfl
    exact absurd hlow (by decide)
  have hlarge : ¬ byte ≤ 13 := by
    intro hle
    have hnat := UInt8.le_iff_toNat_le.mp hle
    exact absurd (hlow.trans hnat) (by decide)
  simp [isSpace, hne, hlarge]

/-- The numbers of the exact platform are written without white space. -/
theorem general_exact_unspaced :
    ∀ number, ∀ byte ∈ Platform.exact.general number, isSpace byte = false := by
  intro number
  have hminus : isSpace DecimalText.minus = false := by decide
  have hsign (negative : Prop) [Decidable negative] :
      ∀ byte ∈ (if negative then [DecimalText.minus] else []), isSpace byte = false := by
    split_ifs
    · exact List.forall_mem_singleton.mpr hminus
    · exact List.forall_mem_nil _
  change ∀ byte ∈
    (if number.den = 1 then DecimalText.intText number.num else writeDecimal 2 number),
      isSpace byte = false
  split_ifs
  · unfold DecimalText.intText
    split_ifs
    · exact List.forall_mem_cons.mpr ⟨hminus, fun _ ↦ isSpace_natText⟩
    · exact fun _ ↦ isSpace_natText
  · unfold writeDecimal
    dsimp only
    rw [List.forall_mem_append, List.forall_mem_append, List.forall_mem_append,
      List.forall_mem_append]
    have hpoint : isSpace 46 = false := by decide
    have hzero : isSpace 48 = false := by decide
    refine ⟨⟨⟨⟨hsign _, fun _ ↦ isSpace_natText⟩, List.forall_mem_singleton.mpr hpoint⟩,
      fun byte hbyte ↦ ?_⟩, fun _ ↦ isSpace_natText⟩
    rw [List.eq_of_mem_replicate hbyte]
    exact hzero

theorem cString_one_ne : cString (ascii "1") ≠ [] := by decide

theorem exact_stod_one : Platform.exact.stod (cString (ascii "1")) = some 1 := by decide +kernel

/-- The first tick of an instrument, at the price 1. -/
def firstRound (comodity : Bytes) (hcomodity : comodity ≠ [] ∧ bar ∉ comodity) :
    Round Platform.exact where
  text :=
    { fields := [ascii "q", comodity, ascii "s2009", ascii "DCE", ascii "1970-01-01 00:00:00",
        ascii "q", ascii "q", ascii "q", ascii "q", ascii "q", ascii "1"]
      long := Nat.le_refl _
      separate := by
        simp only [List.forall_mem_cons]
        exact ⟨by decide, hcomodity, by decide⟩
      newPrice := 1
      price_ne := cString_one_ne
      priced := exact_stod_one }
  queueMap := fun _ ↦ none

theorem results_own_lines_corn :
    OwnLines Worker.start [firstRound (ascii "c") (by decide)] ↔
      ∀ round ∈ [firstRound (ascii "c") (by decide)], round.text.Plain :=
  results_own_lines_iff general_exact_unspaced [firstRound (ascii "c") (by decide)]

/-- The commodity of the first tick contains a blank. Its result ends there, and the rest of its
line stands in front of the line of the second tick. -/
theorem blank_carried_over :
    (Worker.start.results [firstRound (ascii "c x") (by decide),
        firstRound (ascii "c") (by decide)]).toOption.map (List.map ResStruct.resStr) =
      some [ascii "c", ascii "x|s2009|DCE|0|0|0c|s2009|DCE|0|0|0"] ∧
    [firstRound (ascii "c x") (by decide), firstRound (ascii "c") (by decide)].map Round.line =
      [ascii "c x|s2009|DCE|0|0|0", ascii "c|s2009|DCE|0|0|0"] := by
  decide +kernel

end TradeServers.QuoteClient
