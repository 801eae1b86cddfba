import Mathlib.Data.List.Nodup

/-!
# Linearizable histories

Several clients use one object at the same time. A history lists what they see, in the order in
which it happens: that an operation is invoked, and later that it is answered. It is linearizable
when the operations can be put into an order in which they give the same results one at a time, and
in which an operation comes first that was answered before the other was invoked.

- `Recorded.linearizes`: when every operation takes effect at one moment between its invocation and
  its answer, the order of the effects linearizes the history.
- `Recorded.answers_nodup`: and each operation is answered once.
- `Linearizes.finds`: what an operation establishes holds when a later one takes effect, unless a
  third operation that disturbs it overlaps them or comes between them.
-/

set_option autoImplicit false
set_option relaxedAutoImplicit false

namespace TradeServers.Linearization

variable {ι α β γ σ : Type*}

/-- What the clients of an object see. -/
inductive Event (ι α β : Type*)
  | invoke (id : ι) (operation : α)
  | answer (id : ι) (result : β)

/-- An operation that took effect, with its result. -/
structure Effect (ι α β : Type*) where
  id : ι
  operation : α
  result : β

/-- The operation that an event answers. -/
def Event.answered : Event ι α β → Option ι
  | .invoke _ _ => none
  | .answer id _ => some id

/-! ### Before and after in a list -/

/-- The first one occurs in the list before an occurrence of the second one. -/
def Before (list : List γ) (first second : γ) : Prop :=
  ∃ front back, list = front ++ back ∧ first ∈ front ∧ second ∈ back

theorem Before.mem {list : List γ} {first second : γ} (hbefore : Before list first second) :
    first ∈ list ∧ second ∈ list := by
  obtain ⟨front, back, rfl, hfirst, hsecond⟩ := hbefore
  exact ⟨List.mem_append_left _ hfirst, List.mem_append_right _ hsecond⟩

theorem before_concat_iff {list : List γ} {last first second : γ} :
    Before (list ++ [last]) first second ↔
      Before list first second ∨ first ∈ list ∧ second = last := by
  constructor
  · rintro ⟨front, back, hsplit, hfirst, hsecond⟩
    rcases List.eq_nil_or_concat back with rfl | ⟨back, final, rfl⟩
    · cases hsecond
    · rw [List.concat_eq_append, ← List.append_assoc] at hsplit
      obtain ⟨rfl, hlast⟩ := List.append_inj' hsplit rfl
      rw [List.concat_eq_append, List.mem_append, List.mem_singleton] at hsecond
      rcases hsecond with hsecond | rfl
      · exact .inl ⟨front, back, rfl, hfirst, hsecond⟩
      · exact .inr ⟨List.mem_append_left _ hfirst, (List.singleton_inj.mp hlast).symm⟩
  · rintro (⟨front, back, rfl, hfirst, hsecond⟩ | ⟨hfirst, rfl⟩)
    · exact ⟨front, back ++ [last], by simp, hfirst, List.mem_append_left _ hsecond⟩
    · exact ⟨list, [second], rfl, hfirst, List.mem_singleton_self second⟩

/-- In a list without duplicates only one of two occurs before the other. -/
theorem Before.asymm {list : List γ} {first second : γ} (hnodup : list.Nodup)
    (hbefore : Before list first second) : ¬ Before list second first := by
  obtain ⟨front, back, rfl, hfirst, hsecond⟩ := hbefore
  rintro ⟨front', back', hsplit, hsecond', hfirst'⟩
  rcases List.append_eq_append_iff.mp hsplit with ⟨middle, -, rfl⟩ | ⟨middle, rfl, -⟩
  · exact List.disjoint_of_nodup_append hnodup hfirst (List.mem_append_right _ hfirst')
  · exact List.disjoint_of_nodup_append hnodup (List.mem_append_left _ hsecond') hsecond

/-! ### One operation at a time -/

section Object

/-- The operations give their results one after the other. -/
def Sequential (spec : σ → α → β → σ → Prop) : σ → List (Effect ι α β) → σ → Prop
  | state, [], final => state = final
  | state, effect :: order, final =>
    ∃ next, spec state effect.operation effect.result next ∧ Sequential spec next order final

variable {spec : σ → α → β → σ → Prop}

theorem sequential_append_iff {earlier later : List (Effect ι α β)} :
    ∀ {state final : σ}, Sequential spec state (earlier ++ later) final ↔
      ∃ middle, Sequential spec state earlier middle ∧ Sequential spec middle later final := by
  induction earlier with
  | nil => simp [Sequential]
  | cons effect earlier ih =>
    intro state final
    simp only [List.cons_append, Sequential, ih]
    constructor
    · rintro ⟨next, hspec, middle, hearlier, hlater⟩
      exact ⟨middle, ⟨next, hspec, hearlier⟩, hlater⟩
    · rintro ⟨middle, ⟨next, hspec, hearlier⟩, hlater⟩
      exact ⟨next, hspec, middle, hearlier, hlater⟩

/-- What every operation of a list keeps, the list keeps. -/
theorem Sequential.keeps {holds : σ → Prop} {order : List (Effect ι α β)}
    (hkeeps : ∀ effect ∈ order, ∀ state next, holds state →
      spec state effect.operation effect.result next → holds next) :
    ∀ {state final : σ}, holds state → Sequential spec state order final → holds final := by
  induction order with
  | nil => exact fun hholds hsame ↦ hsame ▸ hholds
  | cons effect order ih =>
    rintro state final hholds ⟨next, hspec, hrest⟩
    rw [List.forall_mem_cons] at hkeeps
    exact ih hkeeps.2 (hkeeps.1 state next hholds hspec) hrest

/-! ### Linearizations -/

/-- The order explains the history: its operations give their results one at a time, each was
invoked and takes effect once, all answers are among the results, and what was answered before
something else was invoked comes before it. -/
structure Linearizes (spec : σ → α → β → σ → Prop) (start : σ) (history : List (Event ι α β))
    (order : List (Effect ι α β)) (final : σ) : Prop where
  sequential : Sequential spec start order final
  once : (order.map Effect.id).Nodup
  invoked : ∀ effect ∈ order, .invoke effect.id effect.operation ∈ history
  explained : ∀ id result, .answer id result ∈ history →
    ∃ effect ∈ order, effect.id = id ∧ effect.result = result
  realTime : ∀ earlier ∈ order, ∀ later ∈ order,
    Before history (.answer earlier.id earlier.result) (.invoke later.id later.operation) →
      Before order earlier later

/-- The histories of an object whose operations take effect at one moment, with the order of their
effects and the state of the object. -/
inductive Recorded (spec : σ → α → β → σ → Prop) (start : σ) :
    List (Event ι α β) → List (Effect ι α β) → σ → Prop
  | nil : Recorded spec start [] [] start
  | invoke {history : List (Event ι α β)} {order : List (Effect ι α β)} {state : σ} (id : ι)
      (operation : α) : Recorded spec start history order state →
      (∀ operation, .invoke id operation ∉ history) →
      Recorded spec start (history ++ [.invoke id operation]) order state
  | effect {history : List (Event ι α β)} {order : List (Effect ι α β)} {state : σ}
      (effect : Effect ι α β) (next : σ) : Recorded spec start history order state →
      .invoke effect.id effect.operation ∈ history → effect.id ∉ order.map Effect.id →
      spec state effect.operation effect.result next →
      Recorded spec start history (order ++ [effect]) next
  | answer {history : List (Event ι α β)} {order : List (Effect ι α β)} {state : σ}
      (effect : Effect ι α β) : Recorded spec start history order state → effect ∈ order →
      (∀ result, .answer effect.id result ∉ history) →
      Recorded spec start (history ++ [.answer effect.id effect.result]) order state

variable {start final : σ} {history : List (Event ι α β)} {order : List (Effect ι α β)}

theorem Linearizes.nodup (hlinearizes : Linearizes spec start history order final) :
    order.Nodup :=
  List.Nodup.of_map _ hlinearizes.once

theorem Linearizes.eq_of_id (hlinearizes : Linearizes spec start history order final)
    {first second : Effect ι α β} (hfirst : first ∈ order) (hsecond : second ∈ order)
    (hid : first.id = second.id) : first = second :=
  List.inj_on_of_nodup_map hlinearizes.once hfirst hsecond hid

/-- The order of the effects linearizes the history. -/
theorem Recorded.linearizes (hrecorded : Recorded spec start history order final) :
    Linearizes spec start history order final := by
  induction hrecorded with
  | nil => exact ⟨rfl, List.nodup_nil, by simp, by simp, by simp⟩
  | @invoke history order state id operation hrecorded hfresh ih =>
    refine ⟨ih.sequential, ih.once, fun effect heffect ↦ ?_, fun other result hanswer ↦ ?_,
      fun earlier hearlier later hlater hbefore ↦ ?_⟩
    · exact List.mem_append_left _ (ih.invoked effect heffect)
    · rw [List.mem_append, List.mem_singleton] at hanswer
      rcases hanswer with hanswer | hanswer
      · exact ih.explained other result hanswer
      · cases hanswer
    · rcases before_concat_iff.mp hbefore with hbefore | ⟨-, hlast⟩
      · exact ih.realTime earlier hearlier later hlater hbefore
      · -- an operation that is only just invoked has not taken effect
        injection hlast with hid
        exact absurd (ih.invoked later hlater) (hid ▸ hfresh later.operation)
  | @effect history order state effect next hrecorded hinvoked hnew hspec ih =>
    refine ⟨sequential_append_iff.mpr ⟨state, ih.sequential, next, hspec, rfl⟩, ?_, ?_, ?_, ?_⟩
    · rw [List.map_append, List.map_singleton, List.nodup_append]
      refine ⟨ih.once, List.nodup_singleton _, fun other hother last hlast ↦ ?_⟩
      rw [List.mem_singleton.mp hlast]
      exact ne_of_mem_of_not_mem hother hnew
    · intro other hother
      rw [List.mem_append, List.mem_singleton] at hother
      rcases hother with hother | rfl
      · exact ih.invoked other hother
      · exact hinvoked
    · intro id result hanswer
      obtain ⟨other, hother, hid, hresult⟩ := ih.explained id result hanswer
      exact ⟨other, List.mem_append_left _ hother, hid, hresult⟩
    · intro earlier hearlier later hlater hbefore
      have hold : earlier ∈ order := by
        obtain ⟨other, hother, hid, -⟩ := ih.explained _ _ hbefore.mem.1
        rw [List.mem_append, List.mem_singleton] at hearlier
        rcases hearlier with hearlier | rfl
        · exact hearlier
        · exact absurd (List.mem_map.mpr ⟨other, hother, hid⟩) hnew
      rw [List.mem_append, List.mem_singleton] at hlater
      rcases hlater with hlater | rfl
      · exact before_concat_iff.mpr (.inl (ih.realTime earlier hold later hlater hbefore))
      · exact before_concat_iff.mpr (.inr ⟨hold, rfl⟩)
  | @answer history order state effect hrecorded heffect hunanswered ih =>
    refine ⟨ih.sequential, ih.once, fun other hother ↦ ?_, fun id result hanswer ↦ ?_,
      fun earlier hearlier later hlater hbefore ↦ ?_⟩
    · exact List.mem_append_left _ (ih.invoked other hother)
    · rw [List.mem_append, List.mem_singleton] at hanswer
      rcases hanswer with hanswer | hanswer
      · exact ih.explained id result hanswer
      · injection hanswer with hid hresult
        exact ⟨effect, heffect, hid.symm, hresult.symm⟩
    · rcases before_concat_iff.mp hbefore with hbefore | ⟨-, hlast⟩
      · exact ih.realTime earlier hearlier later hlater hbefore
      · cases hlast

/-- Each operation is answered once. -/
theorem Recorded.answers_nodup (hrecorded : Recorded spec start history order final) :
    (history.filterMap Event.answered).Nodup := by
  induction hrecorded with
  | nil => exact List.nodup_nil
  | invoke id operation _ _ ih =>
    rw [List.filterMap_append]
    exact (List.append_nil _).symm ▸ ih
  | effect effect next _ _ _ _ ih => exact ih
  | @answer history order state effect _ _ hunanswered ih =>
    rw [List.filterMap_append, List.nodup_append]
    refine ⟨ih, List.nodup_singleton _, fun id hid last hlast hsame ↦ ?_⟩
    rw [List.mem_singleton.mp hlast] at hsame
    obtain ⟨event, hevent, hanswered⟩ := List.mem_filterMap.mp hid
    cases event with
    | invoke other operation => cases hanswered
    | answer other result =>
      injection hanswered with hother
      exact hunanswered result ((hother.trans hsame) ▸ hevent)

/-- Each operation is invoked once. -/
theorem Recorded.eq_of_invoke (hrecorded : Recorded spec start history order final) {id : ι}
    {first second : α} (hfirst : .invoke id first ∈ history)
    (hsecond : .invoke id second ∈ history) : first = second := by
  induction hrecorded with
  | nil => cases hfirst
  | invoke other operation _ hfresh ih =>
    rw [List.mem_append, List.mem_singleton] at hfirst hsecond
    rcases hfirst with hfirst | hfirst <;> rcases hsecond with hsecond | hsecond
    · exact ih hfirst hsecond
    · injection hsecond with hid
      exact absurd hfirst (hid ▸ hfresh first)
    · injection hfirst with hid
      exact absurd hsecond (hid ▸ hfresh second)
    · injection hfirst with _ hfirst
      injection hsecond with _ hsecond
      rw [hfirst, hsecond]
  | effect effect next _ _ _ _ ih => exact ih hfirst hsecond
  | answer effect _ _ _ ih =>
    rw [List.mem_append, List.mem_singleton] at hfirst hsecond
    exact ih (hfirst.resolve_right (by simp)) (hsecond.resolve_right (by simp))

/-- What the first operation establishes holds when the second one takes effect, if the second was
invoked when the first had been answered, and every operation that disturbs it was answered before
the first was invoked or invoked when the second had been answered. -/
theorem Linearizes.finds {holds : σ → Prop} {first second : Effect ι α β}
    (hlinearizes : Linearizes spec start history order final) (hfirst : first ∈ order)
    (hsecond : second ∈ order)
    (hbefore : Before history (.answer first.id first.result)
      (.invoke second.id second.operation))
    (hestablishes : ∀ state next, spec state first.operation first.result next → holds next)
    (hothers : ∀ other ∈ order, other ≠ first → other ≠ second →
      (∀ state next, holds state → spec state other.operation other.result next → holds next) ∨
        Before history (.answer other.id other.result) (.invoke first.id first.operation) ∨
        Before history (.answer second.id second.result)
          (.invoke other.id other.operation)) :
    ∃ state next, holds state ∧ spec state second.operation second.result next := by
  have hnodup := hlinearizes.nodup
  have hreal := hlinearizes.realTime
  obtain ⟨front, back, hsplit, hfront, hback⟩ := hreal first hfirst second hsecond hbefore
  obtain ⟨before, between, rfl⟩ := List.append_of_mem hfront
  obtain ⟨between', after, rfl⟩ := List.append_of_mem hback
  have horder : order = before ++ first :: (between ++ between' ++ second :: after) := by
    rw [hsplit]
    simp
  have hsequential := hlinearizes.sequential
  rw [horder, sequential_append_iff] at hsequential
  obtain ⟨_, -, stored, hfirstSpec, hrest⟩ := hsequential
  obtain ⟨found, hbetween, next, hspec, -⟩ := sequential_append_iff.mp hrest
  refine ⟨found, next, Sequential.keeps (fun other hother state next hholds hdeal ↦ ?_)
    (hestablishes _ _ hfirstSpec) hbetween, hspec⟩
  have hafterFirst : Before order first other :=
    ⟨before ++ [first], between ++ between' ++ second :: after, by rw [horder]; simp, by simp,
      List.mem_append_left _ hother⟩
  have hbeforeSecond : Before order other second :=
    ⟨before ++ first :: (between ++ between'), second :: after, by rw [horder]; simp,
      List.mem_append_right _ (List.mem_cons_of_mem _ hother), List.mem_cons_self⟩
  have hmem := hbeforeSecond.mem.1
  have hneFirst : other ≠ first := by
    rintro rfl
    exact hafterFirst.asymm hnodup hafterFirst
  have hneSecond : other ≠ second := by
    rintro rfl
    exact hbeforeSecond.asymm hnodup hbeforeSecond
  rcases hothers other hmem hneFirst hneSecond with hkeeps | hearlier | hlater
  · exact hkeeps state next hholds hdeal
  · exact absurd (hreal other hmem first hfirst hearlier) (hafterFirst.asymm hnodup)
  · exact absurd (hreal second hsecond other hmem hlater) (hbeforeSecond.asymm hnodup)

end Object

end TradeServers.Linearization
