import TradeServers.QuoteClient.TickBuffer

/-!
# Results of ticks

A worker keeps `tickMutex` from the pop of a tick until its result is queued, so one tick is on its
way at a time (`Stage`). Results are therefore queued in the order in which their ticks were taken,
and the windows are updated in this order as well (`sound_run`).
-/

set_option autoImplicit false
set_option relaxedAutoImplicit false

namespace TradeServers.QuoteClient

open Execution

section Rounds

variable {Double : Type}

/-- The bodies that workers took, in their order. -/
def State.taken (state : State Double) : List Bytes :=
  (state.departed.filter Departure.taken).map Departure.item

/-- The bodies whose results were queued, in their order. -/
def State.finished (state : State Double) : List Bytes := state.pushed.map Prod.fst

variable (platform : Platform Double)

/-- The result names the instrument of its body. -/
def Belongs (entry : Bytes × ResStruct) : Prop :=
  ∃ tick, parseTick platform entry.1 = .ok tick ∧ entry.2.comodity = tick.comodity ∧
    entry.2.contractNo = tick.contractNo ∧ entry.2.exchange = tick.exchange

/-- How far the tick on its way is, if there is one: no worker holds a lock, or one has popped a
body, or it has also updated the windows. All other workers are outside. -/
inductive Stage (state : State Double) : Prop
  | free (htick : state.tickMutex = none) (hmap : state.mapMutex = none)
      (hidle : ∀ worker, (state.workers worker).phase = .idle)
      (htaken : state.taken = state.finished) (hupdated : state.updated = state.finished)
  | popped (worker : ℕ) (itFront : Bytes) (htick : state.tickMutex = some worker)
      (hmap : state.mapMutex = none) (hphase : (state.workers worker).phase = .popped itFront)
      (hidle : ∀ other, other ≠ worker → (state.workers other).phase = .idle)
      (htaken : state.taken = state.finished ++ [itFront])
      (hupdated : state.updated = state.finished)
  | updated (worker : ℕ) (itFront : Bytes) (res : ResStruct)
      (htick : state.tickMutex = some worker)
      (hphase : (state.workers worker).phase = .updated itFront res)
      (hidle : ∀ other, other ≠ worker → (state.workers other).phase = .idle)
      (htaken : state.taken = state.finished ++ [itFront])
      (hupdated : state.updated = state.finished ++ [itFront])
      (hbelongs : Belongs platform (itFront, res))

variable {platform} {workers : ℕ} {state next : State Double} {event : Event}

/-- The stage depends on the workers, their locks and their history only. -/
theorem Stage.congr (hstage : Stage platform state) (htick : next.tickMutex = state.tickMutex)
    (hmap : next.mapMutex = state.mapMutex) (hworkers : next.workers = state.workers)
    (htaken : next.taken = state.taken) (hupdated : next.updated = state.updated)
    (hpushed : next.pushed = state.pushed) : Stage platform next := by
  have hfinished : next.finished = state.finished := congrArg (List.map Prod.fst) hpushed
  cases hstage with
  | free etick emap eidle etaken eupdated =>
    exact .free (htick.trans etick) (hmap.trans emap) (hworkers ▸ eidle)
      (htaken.trans (etaken.trans hfinished.symm)) (hupdated.trans (eupdated.trans hfinished.symm))
  | popped worker itFront etick emap ephase eidle etaken eupdated =>
    refine .popped worker itFront (htick.trans etick) (hmap.trans emap) (hworkers ▸ ephase)
      (hworkers ▸ eidle) ?_ ?_
    · rw [htaken, etaken, hfinished]
    · rw [hupdated, eupdated, hfinished]
  | updated worker itFront res etick ephase eidle etaken eupdated ebelongs =>
    refine .updated worker itFront res (htick.trans etick) (hworkers ▸ ephase) (hworkers ▸ eidle)
      ?_ ?_ ebelongs
    · rw [htaken, etaken, hfinished]
    · rw [hupdated, eupdated, hfinished]

/-- While no worker holds `tickMutex`, no tick is on its way. -/
theorem Stage.free_of_tickMutex (hstage : Stage platform state) (hfree : state.tickMutex = none) :
    state.mapMutex = none ∧ (∀ worker, (state.workers worker).phase = .idle) ∧
      state.taken = state.finished ∧ state.updated = state.finished := by
  cases hstage with
  | free _ hmap hidle htaken hupdated => exact ⟨hmap, hidle, htaken, hupdated⟩
  | popped _ _ htick => exact absurd (hfree.symm.trans htick) nofun
  | updated _ _ _ htick => exact absurd (hfree.symm.trans htick) nofun

/-- A worker with a popped body holds `tickMutex` alone, and its body is the last one that was
taken. -/
theorem Stage.of_popped (hstage : Stage platform state) {worker : ℕ} {itFront : Bytes}
    (hphase : (state.workers worker).phase = .popped itFront) :
    state.tickMutex = some worker ∧ state.mapMutex = none ∧
      (∀ other, other ≠ worker → (state.workers other).phase = .idle) ∧
      state.taken = state.finished ++ [itFront] ∧ state.updated = state.finished := by
  cases hstage with
  | free _ _ hidle => exact absurd (hphase.symm.trans (hidle worker)) nofun
  | popped holder body htick hmap hbody hidle htaken hupdated =>
    obtain rfl : worker = holder := by
      by_contra hne
      exact absurd (hphase.symm.trans (hidle worker hne)) nofun
    obtain rfl : itFront = body := Phase.popped.inj (hphase.symm.trans hbody)
    exact ⟨htick, hmap, hidle, htaken, hupdated⟩
  | updated holder body res _ hbody hidle =>
    by_cases hsame : worker = holder
    · rw [hsame, hbody] at hphase
      exact absurd hphase nofun
    · exact absurd (hphase.symm.trans (hidle worker hsame)) nofun

/-- A worker with a result is past the update of the windows, which were those of its body. -/
theorem Stage.of_updated (hstage : Stage platform state) {worker : ℕ} {itFront : Bytes}
    {res : ResStruct} (hphase : (state.workers worker).phase = .updated itFront res) :
    (∀ other, other ≠ worker → (state.workers other).phase = .idle) ∧
      state.taken = state.finished ++ [itFront] ∧ state.updated = state.finished ++ [itFront] ∧
      Belongs platform (itFront, res) := by
  cases hstage with
  | free _ _ hidle => exact absurd (hphase.symm.trans (hidle worker)) nofun
  | popped holder body _ _ hbody hidle =>
    by_cases hsame : worker = holder
    · rw [hsame, hbody] at hphase
      exact absurd hphase nofun
    · exact absurd (hphase.symm.trans (hidle worker hsame)) nofun
  | updated holder body other _ hbody hidle htaken hupdated hbelongs =>
    obtain rfl : worker = holder := by
      by_contra hne
      exact absurd (hphase.symm.trans (hidle worker hne)) nofun
    obtain ⟨rfl, rfl⟩ := Phase.updated.inj (hphase.symm.trans hbody)
    exact ⟨hidle, htaken, hupdated, hbelongs⟩

/-- The overflow check does not count as taking. -/
theorem taken_offer {queue : DistinctQueue Bytes maxSize} (hbuffered : Buffered state queue)
    (feed : Feed) (body : Bytes) : (state.offer feed body).taken = state.taken := by
  rcases offer_cases hbuffered feed body with ⟨-, hoffer⟩ | ⟨-, -, hoffer⟩ | ⟨_, _, -, -, -, hoffer⟩
  · rw [hoffer]
    rfl
  · rw [hoffer]
    rfl
  · rw [hoffer]
    simp [State.taken]

theorem taken_takeFront (worker : ℕ) (front : Bytes) (rest : List Bytes) :
    (state.takeFront worker front rest).taken = state.taken ++ [front] := by
  simp [State.taken, State.takeFront, State.popFront]

/-- A worker pops a tick while none is on its way. -/
theorem stage_takeFront (hstage : Stage platform state) (hfree : state.tickMutex = none)
    (worker : ℕ) (front : Bytes) (rest : List Bytes) :
    Stage platform (state.takeFront worker front rest) := by
  obtain ⟨hmap, hidle, htaken, hupdated⟩ := hstage.free_of_tickMutex hfree
  refine .popped worker front rfl hmap ?_ (fun other hother ↦ ?_) ?_ hupdated
  · change (Function.update state.workers worker _ worker).phase = _
    rw [Function.update_self]
  · change (Function.update state.workers worker _ other).phase = _
    rw [Function.update_of_ne hother]
    exact hidle other
  · rw [taken_takeFront, htaken]
    rfl

/-- The worker that popped a tick updates the windows for it. -/
theorem stage_update (hstage : Stage platform state) {worker : ℕ} {itFront : Bytes}
    {tick : Tick Double} (hphase : (state.workers worker).phase = .popped itFront)
    (hparse : parseTick platform itFront = .ok tick) :
    Stage platform (state.update platform worker itFront tick) := by
  obtain ⟨htick, -, hidle, htaken, hupdated⟩ := hstage.of_popped hphase
  refine .updated worker itFront
    ((state.workers worker).res platform tick (updateWindows platform state.queueMap tick).2)
    htick ?_ (fun other hother ↦ ?_) htaken (congrArg (· ++ [itFront]) hupdated)
    ⟨tick, hparse, rfl, rfl, rfl⟩
  · change (Function.update state.workers worker _ worker).phase = _
    rw [Function.update_self]
    rfl
  · change (Function.update state.workers worker _ other).phase = _
    rw [Function.update_of_ne hother]
    exact hidle other hother

/-- The worker with the result queues it, and then no tick is on its way. -/
theorem stage_push (hstage : Stage platform state) {worker : ℕ} {itFront : Bytes} {res : ResStruct}
    (hphase : (state.workers worker).phase = .updated itFront res) :
    Stage platform (state.push worker itFront res) := by
  obtain ⟨hidle, htaken, hupdated, -⟩ := hstage.of_updated hphase
  have hfinished : (state.push worker itFront res).finished = state.finished ++ [itFront] :=
    List.map_append
  refine .free rfl rfl (fun other ↦ ?_) (htaken.trans hfinished.symm)
    (hupdated.trans hfinished.symm)
  change (Function.update state.workers worker _ other).phase = _
  by_cases hother : other = worker
  · rw [hother, Function.update_self]
  · rw [Function.update_of_ne hother]
    exact hidle other hother

/-! ### The rounds of a run -/

/-- The state of a run: the buffer is a queue, at most one tick is on its way, every queued result
names the instrument of its body, results leave their queue in order, and the windows are those of
the updated bodies in their order. -/
structure Sound (platform : Platform Double) (state : State Double) : Prop where
  buffered : ∃ queue, Buffered state queue
  stage : Stage platform state
  belongs : ∀ entry ∈ state.pushed, Belongs platform entry
  queued : state.pushed.map Prod.snd = state.popped ++ state.resQue
  windows : ∃ ticks, List.Forall₂ (fun body tick ↦ parseTick platform body = .ok tick)
    state.updated ticks ∧ state.queueMap = windowsAfter ticks

theorem sound_initial : Sound platform (initial : State Double) where
  buffered := ⟨_, buffered_initial⟩
  stage := .free rfl rfl (fun _ ↦ rfl) rfl rfl
  belongs := List.forall_mem_nil _
  queued := rfl
  windows := ⟨[], .nil, rfl⟩

theorem sound_of_move (hsound : Sound platform state)
    (hmove : Move platform workers state event next) : Sound platform next := by
  have hbuffered := buffered_of_move platform hsound.buffered hmove
  cases hmove with
  | quote feed message body hbody hfree =>
    obtain ⟨queue, hqueue⟩ := hsound.buffered
    have htaken := taken_offer hqueue feed body
    obtain ⟨_, _, _, _, hoffer⟩ := offer_frame state feed body
    rw [hoffer] at htaken hbuffered ⊢
    exact ⟨hbuffered, hsound.stage.congr rfl rfl rfl htaken rfl rfl, hsound.belongs, hsound.queued,
      hsound.windows⟩
  | takeTick worker front rest _ _ hfree =>
    exact ⟨hbuffered, stage_takeFront hsound.stage hfree worker front rest, hsound.belongs,
      hsound.queued, hsound.windows⟩
  | updateWindows worker itFront tick hphase _ hparse =>
    refine ⟨hbuffered, stage_update hsound.stage hphase hparse, hsound.belongs, hsound.queued, ?_⟩
    obtain ⟨ticks, hticks, hqueueMap⟩ := hsound.windows
    refine ⟨ticks ++ [tick], List.rel_append hticks (.cons hparse .nil), ?_⟩
    change (updateWindows platform state.queueMap tick).1 = windowsAfter (ticks ++ [tick])
    rw [updateWindows_eq, windowsAfter_concat, hqueueMap]
  | pushResult worker itFront res hphase hsender =>
    obtain ⟨-, -, -, hbelongs⟩ := hsound.stage.of_updated hphase
    refine ⟨hbuffered, stage_push hsound.stage hphase, List.forall_mem_append.mpr ⟨hsound.belongs,
      List.forall_mem_singleton.mpr hbelongs⟩, ?_, hsound.windows⟩
    change (state.pushed ++ [(itFront, res)]).map Prod.snd = state.popped ++ (state.resQue ++ [res])
    rw [List.map_append, hsound.queued, List.append_assoc]
    rfl
  | popResult res rest hsender hresQue =>
    refine ⟨hbuffered, hsound.stage.congr rfl rfl rfl rfl rfl rfl, hsound.belongs, ?_,
      hsound.windows⟩
    change state.pushed.map Prod.snd = state.popped ++ [res] ++ rest
    rw [hsound.queued, hresQue, List.append_assoc]
    rfl
  | _ =>
    exact ⟨hbuffered, hsound.stage.congr rfl rfl rfl rfl rfl rfl, hsound.belongs, hsound.queued,
      hsound.windows⟩

theorem sound_run {events : List Event} {final : State Double}
    (hrun : run (step platform workers) initial events = .ok final) : Sound platform final :=
  run_invariant_of_move platform sound_of_move sound_initial hrun

theorem Sound.taken_sublist (hsound : Sound platform state) :
    state.taken.Sublist state.accepted := by
  obtain ⟨queue, hbuffered⟩ := hsound.buffered
  have htaken := queue.taken_sublist
  rw [← hbuffered.accepted] at htaken
  rw [State.taken, hbuffered.departed]
  exact htaken

/-- Queued results and updated windows are those of taken bodies. -/
theorem Sound.prefix_taken (hsound : Sound platform state) :
    state.finished <+: state.taken ∧ state.updated <+: state.taken := by
  cases hsound.stage with
  | free _ _ _ htaken hupdated =>
    rw [hupdated, htaken]
    exact ⟨List.prefix_rfl, List.prefix_rfl⟩
  | popped _ itFront _ _ _ _ htaken hupdated =>
    rw [hupdated, htaken]
    exact ⟨List.prefix_append _ _, List.prefix_append _ _⟩
  | updated _ itFront _ _ _ _ htaken hupdated _ =>
    rw [hupdated, htaken]
    exact ⟨List.prefix_append _ _, List.prefix_rfl⟩

end Rounds

end TradeServers.QuoteClient
