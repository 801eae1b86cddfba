import Mathlib.Data.List.Basic

/-!
# Runs of systems whose steps can fail

A system takes one step for every action of a list, and a step may end in an error that stops the
run. This module holds the rules that turn facts about one step into facts about runs.

- `run_invariant`: what every successful step preserves holds at the end of a run.
- `Guarded.run_invariant`: the same for steps that satisfy a guard.
- `Guarded.run_history`: the same for properties of the state and the actions that led to it.
- `run_isOk_iff_guarded`: a run succeeds exactly when the guard of every step it takes holds.
- `run_holds_iff_guarded`: a run keeps a property exactly when the guard of every step holds.
- `Removed.run`: when a relation between states is preserved by kept steps on both sides and by
  removable steps on one, removing such steps from a run keeps its outcome related.
-/

set_option autoImplicit false
set_option relaxedAutoImplicit false

namespace TradeServers.Execution

variable {σ ι ε : Type*}

/-- The outcome of a list of actions. -/
def run (step : σ → ι → Except ε σ) : σ → List ι → Except ε σ
  | state, [] => .ok state
  | state, action :: actions =>
    match step state action with
    | .ok next => run step next actions
    | .error fault => .error fault

variable {step : σ → ι → Except ε σ}

@[simp] theorem run_nil (state : σ) : run step state [] = .ok state := rfl

theorem run_cons_ok {state next : σ} {action : ι} (hstep : step state action = .ok next)
    (actions : List ι) : run step state (action :: actions) = run step next actions := by
  rw [run, hstep]

theorem run_cons_error {state : σ} {fault : ε} {action : ι}
    (hstep : step state action = .error fault) (actions : List ι) :
    run step state (action :: actions) = .error fault := by
  rw [run, hstep]

/-- A sequence of two computations is successful when both are. -/
theorem bind_eq_ok_iff {α β : Type} {first : Except ε α} {second : α → Except ε β} {result : β} :
    (first >>= second) = .ok result ↔ ∃ value, first = .ok value ∧ second value = .ok result := by
  cases first with
  | error fault =>
    constructor
    · intro hbind
      cases hbind
    · rintro ⟨_, hfirst, -⟩
      cases hfirst
  | ok value =>
    constructor
    · exact fun hbind ↦ ⟨value, rfl, hbind⟩
    · rintro ⟨_, hfirst, hsecond⟩
      obtain rfl := Except.ok.inj hfirst
      exact hsecond

/-- A computation of which something was found was successful. -/
theorem exists_ok_of_toOption {α β : Type*} {outcome : Except ε α} {found : α → β} {value : β}
    (hvalue : outcome.toOption.map found = some value) :
    ∃ result, outcome = .ok result ∧ found result = value := by
  cases outcome with
  | error fault => cases hvalue
  | ok result => exact ⟨result, rfl, Option.some.inj hvalue⟩

/-- The run of a first action and a rest is successful when both parts are. -/
theorem run_cons_eq_ok_iff {state final : σ} {action : ι} {actions : List ι} :
    run step state (action :: actions) = .ok final ↔
      ∃ next, step state action = .ok next ∧ run step next actions = .ok final := by
  constructor
  · intro hrun
    cases hstep : step state action with
    | ok next => exact ⟨next, rfl, run_cons_ok hstep actions ▸ hrun⟩
    | error fault =>
      rw [run_cons_error hstep] at hrun
      cases hrun
  · rintro ⟨next, hstep, hrest⟩
    rw [run_cons_ok hstep, hrest]

/-- The run of two parts is successful when both parts are. -/
theorem run_append_eq_ok_iff {earlier later : List ι} :
    ∀ {state final : σ}, run step state (earlier ++ later) = .ok final ↔
      ∃ middle, run step state earlier = .ok middle ∧ run step middle later = .ok final := by
  induction earlier with
  | nil =>
    intro state final
    constructor
    · exact fun hrun ↦ ⟨state, rfl, hrun⟩
    · rintro ⟨middle, hnone, hrun⟩
      obtain rfl := Except.ok.inj hnone
      exact hrun
  | cons action earlier ih =>
    intro state final
    rw [List.cons_append, run_cons_eq_ok_iff]
    constructor
    · rintro ⟨next, hstep, hrun⟩
      obtain ⟨middle, hearlier, hlater⟩ := ih.mp hrun
      exact ⟨middle, run_cons_eq_ok_iff.mpr ⟨next, hstep, hearlier⟩, hlater⟩
    · rintro ⟨middle, hearlier, hlater⟩
      obtain ⟨next, hstep, hrest⟩ := run_cons_eq_ok_iff.mp hearlier
      exact ⟨next, hstep, ih.mpr ⟨middle, hrest, hlater⟩⟩

/-- What every successful step preserves holds at the end of every successful run. -/
theorem run_invariant {good : σ → Prop}
    (hpreserved : ∀ state action next, good state → step state action = .ok next → good next)
    {actions : List ι} :
    ∀ {state final : σ}, good state → run step state actions = .ok final → good final := by
  induction actions with
  | nil =>
    intro state final hgood hrun
    cases hrun
    exact hgood
  | cons action actions ih =>
    intro state final hgood hrun
    obtain ⟨next, hstep, hrest⟩ := run_cons_eq_ok_iff.mp hrun
    exact ih (hpreserved state action next hgood hstep) hrest

/-! ### Guards -/

/-- The guard holds of every step of the run that is reached. -/
def Guarded (step : σ → ι → Except ε σ) (guard : σ → ι → Prop) : σ → List ι → Prop
  | _, [] => True
  | state, action :: actions =>
    guard state action ∧ ∀ next, step state action = .ok next → Guarded step guard next actions

/-- A guard that holds in every good state holds along every run. -/
theorem guarded_of_invariant {good : σ → Prop} {guard : σ → ι → Prop}
    (hpreserved : ∀ state action next, good state → step state action = .ok next → good next)
    (hguard : ∀ state action, good state → guard state action) (actions : List ι) :
    ∀ {state : σ}, good state → Guarded step guard state actions := by
  induction actions with
  | nil => exact fun _ ↦ trivial
  | cons action actions ih =>
    intro state hgood
    exact ⟨hguard state action hgood,
      fun next hstep ↦ ih (hpreserved state action next hgood hstep)⟩

/-- A guard holds along a run when it holds of all actions in any state. -/
theorem guarded_of_forall {guard : σ → ι → Prop} {actions : List ι}
    (hall : ∀ action ∈ actions, ∀ state, guard state action) :
    ∀ state : σ, Guarded step guard state actions := by
  induction actions with
  | nil => exact fun _ ↦ trivial
  | cons action actions ih =>
    rw [List.forall_mem_cons] at hall
    exact fun state ↦ ⟨hall.1 state, fun next _ ↦ ih hall.2 next⟩

/-- A guard of the actions alone holds along a run when it holds of all actions. -/
theorem guarded_of_forall_mem {guard : ι → Prop} {actions : List ι}
    (hall : ∀ action ∈ actions, guard action) :
    ∀ state : σ, Guarded step (fun _ ↦ guard) state actions :=
  guarded_of_forall fun action haction _ ↦ hall action haction

/-- When a guard depends, in a good state, on the action alone, and an action for which it holds
succeeds and leaves a good state, it holds along a run exactly when it does of all actions. -/
theorem guarded_iff_forall_mem {good : σ → Prop} {guard : σ → ι → Prop} {fine : ι → Prop}
    (hguard : ∀ state action, good state → (guard state action ↔ fine action))
    (hstep : ∀ state action, good state → fine action →
      ∃ next, step state action = .ok next ∧ good next) {actions : List ι} :
    ∀ {state : σ}, good state →
      (Guarded step guard state actions ↔ ∀ action ∈ actions, fine action) := by
  induction actions with
  | nil => exact fun _ ↦ ⟨fun _ ↦ List.forall_mem_nil _, fun _ ↦ trivial⟩
  | cons action actions ih =>
    intro state hgood
    rw [List.forall_mem_cons]
    constructor
    · rintro ⟨hnow, hlater⟩
      have hfine := (hguard state action hgood).mp hnow
      obtain ⟨next, hnext, hkept⟩ := hstep state action hgood hfine
      exact ⟨hfine, (ih hkept).mp (hlater next hnext)⟩
    · rintro ⟨hfine, hlater⟩
      refine ⟨(hguard state action hgood).mpr hfine, fun next hnext ↦ ?_⟩
      obtain ⟨other, hother, hkept⟩ := hstep state action hgood hfine
      obtain rfl : other = next := Except.ok.inj (hother.symm.trans hnext)
      exact (ih hkept).mpr hlater

/-- Two guards that give a third at every step give it along a run. -/
theorem Guarded.combine {first second third : σ → ι → Prop}
    (himp : ∀ state action, first state action → second state action → third state action)
    {actions : List ι} :
    ∀ {state : σ}, Guarded step first state actions → Guarded step second state actions →
      Guarded step third state actions := by
  induction actions with
  | nil => exact fun _ _ ↦ trivial
  | cons action actions ih =>
    intro state hfirst hsecond
    exact ⟨himp state action hfirst.1 hsecond.1,
      fun next hstep ↦ ih (hfirst.2 next hstep) (hsecond.2 next hstep)⟩

/-- What every guarded and successful step preserves holds before every step of a guarded run. -/
theorem Guarded.of_invariant {good : σ → Prop} {guard : σ → ι → Prop}
    (hpreserved : ∀ state action next, good state → guard state action →
      step state action = .ok next → good next) {actions : List ι} :
    ∀ {state : σ}, good state → Guarded step guard state actions →
      Guarded step (fun state _ ↦ good state) state actions := by
  induction actions with
  | nil => exact fun _ _ ↦ trivial
  | cons action actions ih =>
    intro state hgood hguarded
    exact ⟨hgood, fun next hstep ↦
      ih (hpreserved state action next hgood hguarded.1 hstep) (hguarded.2 next hstep)⟩

/-- What every guarded and successful step preserves holds at the end of every guarded and
successful run. -/
theorem Guarded.run_invariant {good : σ → Prop} {guard : σ → ι → Prop}
    (hpreserved : ∀ state action next, good state → guard state action →
      step state action = .ok next → good next) {actions : List ι} :
    ∀ {state final : σ}, good state → Guarded step guard state actions →
      run step state actions = .ok final → good final := by
  induction actions with
  | nil =>
    intro state final hgood _ hrun
    cases hrun
    exact hgood
  | cons action actions ih =>
    intro state final hgood hguarded hrun
    obtain ⟨next, hstep, hrest⟩ := run_cons_eq_ok_iff.mp hrun
    exact ih (hpreserved state action next hgood hguarded.1 hstep) (hguarded.2 next hstep) hrest

/-- The guard of a run of two parts is that of the first, and of the second behind it. -/
theorem guarded_append_iff {guard : σ → ι → Prop} {earlier later : List ι} :
    ∀ {state : σ}, Guarded step guard state (earlier ++ later) ↔
      Guarded step guard state earlier ∧
        ∀ middle, run step state earlier = .ok middle → Guarded step guard middle later := by
  induction earlier with
  | nil =>
    intro state
    constructor
    · refine fun hguarded ↦ ⟨trivial, fun middle hnone ↦ ?_⟩
      obtain rfl := Except.ok.inj hnone
      exact hguarded
    · exact fun hboth ↦ hboth.2 state rfl
  | cons action earlier ih =>
    intro state
    constructor
    · rintro ⟨hnow, hrest⟩
      refine ⟨⟨hnow, fun next hstep ↦ (ih.mp (hrest next hstep)).1⟩, fun middle hrun ↦ ?_⟩
      obtain ⟨next, hstep, hearlier⟩ := run_cons_eq_ok_iff.mp hrun
      exact (ih.mp (hrest next hstep)).2 middle hearlier
    · rintro ⟨⟨hnow, hearlier⟩, hlater⟩
      exact ⟨hnow, fun next hstep ↦ ih.mpr ⟨hearlier next hstep, fun middle hrun ↦
        hlater middle (run_cons_eq_ok_iff.mpr ⟨next, hstep, hrun⟩)⟩⟩

/-- A property of the state and of the actions that led to it holds at the end of every guarded and
successful run, when each step extends it. -/
theorem Guarded.run_history {good : List ι → σ → Prop} {guard : σ → ι → Prop}
    (hpreserved : ∀ earlier state action next, good earlier state → guard state action →
      step state action = .ok next → good (earlier ++ [action]) next) {actions : List ι} :
    ∀ {earlier : List ι} {state final : σ}, good earlier state → Guarded step guard state actions →
      run step state actions = .ok final → good (earlier ++ actions) final := by
  induction actions with
  | nil =>
    intro earlier state final hgood _ hrun
    cases hrun
    rw [List.append_nil]
    exact hgood
  | cons action actions ih =>
    intro earlier state final hgood hguarded hrun
    obtain ⟨next, hstep, hrest⟩ := run_cons_eq_ok_iff.mp hrun
    have hnext := hpreserved earlier state action next hgood hguarded.1 hstep
    have hfinal := ih hnext (hguarded.2 next hstep) hrest
    rwa [List.append_assoc] at hfinal

/-- When every guarded step from a good state succeeds and keeps it good, every guarded run
succeeds. -/
theorem Guarded.run_isOk {good : σ → Prop} {guard : σ → ι → Prop}
    (hok : ∀ state action, good state → guard state action →
      ∃ next, step state action = .ok next ∧ good next) {actions : List ι} :
    ∀ {state : σ}, good state → Guarded step guard state actions →
      ∃ final, run step state actions = .ok final ∧ good final := by
  induction actions with
  | nil => exact fun hgood _ ↦ ⟨_, rfl, hgood⟩
  | cons action actions ih =>
    intro state hgood hguarded
    obtain ⟨next, hstep, hnext⟩ := hok state action hgood hguarded.1
    obtain ⟨final, hrun, hfinal⟩ := ih hnext (hguarded.2 next hstep)
    exact ⟨final, run_cons_eq_ok_iff.mpr ⟨next, hstep, hrun⟩, hfinal⟩

/-- When a guard says of every good state which steps succeed, and successful steps keep states
good, a run succeeds exactly when it is guarded. -/
theorem run_isOk_iff_guarded {good : σ → Prop} {guard : σ → ι → Prop}
    (hpreserved : ∀ state action next, good state → step state action = .ok next → good next)
    (hguard : ∀ state action, good state → ((∃ next, step state action = .ok next) ↔
      guard state action)) {actions : List ι} :
    ∀ {state : σ}, good state →
      ((∃ final, run step state actions = .ok final) ↔ Guarded step guard state actions) := by
  induction actions with
  | nil => exact fun _ ↦ ⟨fun _ ↦ trivial, fun _ ↦ ⟨_, rfl⟩⟩
  | cons action actions ih =>
    intro state hgood
    constructor
    · rintro ⟨final, hrun⟩
      obtain ⟨next, hstep, hrest⟩ := run_cons_eq_ok_iff.mp hrun
      refine ⟨(hguard state action hgood).mp ⟨next, hstep⟩, fun other hother ↦ ?_⟩
      obtain rfl : next = other := Except.ok.inj (hstep.symm.trans hother)
      exact (ih (hpreserved state action next hgood hstep)).mp ⟨final, hrest⟩
    · rintro ⟨hnow, hlater⟩
      obtain ⟨next, hstep⟩ := (hguard state action hgood).mpr hnow
      obtain ⟨final, hrest⟩ :=
        (ih (hpreserved state action next hgood hstep)).mpr (hlater next hstep)
      exact ⟨final, run_cons_eq_ok_iff.mpr ⟨next, hstep, hrest⟩⟩

/-- When a property survives a step from a good state exactly if the step's guard holds, a run keeps
it exactly when the run is guarded. -/
theorem run_holds_iff_guarded {good holds : σ → Prop} {guard : σ → ι → Prop}
    (hpreserved : ∀ state action next, good state → step state action = .ok next → good next)
    (hstep : ∀ state action next, good state → step state action = .ok next →
      (holds next ↔ holds state ∧ guard state action)) {actions : List ι} :
    ∀ {state final : σ}, good state → run step state actions = .ok final →
      (holds final ↔ holds state ∧ Guarded step guard state actions) := by
  induction actions with
  | nil =>
    intro state final _ hrun
    cases hrun
    exact (and_iff_left trivial).symm
  | cons action actions ih =>
    intro state final hgood hrun
    obtain ⟨next, hnext, hrest⟩ := run_cons_eq_ok_iff.mp hrun
    rw [ih (hpreserved state action next hgood hnext) hrest, hstep state action next hgood hnext,
      and_assoc]
    refine and_congr_right fun _ ↦ and_congr_right fun _ ↦ ⟨fun hguarded other hother ↦ ?_,
      fun hguarded ↦ hguarded next hnext⟩
    obtain rfl : next = other := Except.ok.inj (hnext.symm.trans hother)
    exact hguarded

/-! ### Removing actions from a run -/

/-- The second list is the first with some of its removable actions left out; all actions are
admitted ones. -/
inductive Removed (admitted removable : ι → Prop) : List ι → List ι → Prop
  | nil : Removed admitted removable [] []
  | keep (action : ι) {actions fewer : List ι} : admitted action →
      Removed admitted removable actions fewer →
      Removed admitted removable (action :: actions) (action :: fewer)
  | drop (action : ι) {actions fewer : List ι} : admitted action → removable action →
      Removed admitted removable actions fewer →
      Removed admitted removable (action :: actions) fewer

/-- Two outcomes agree when both are states in the relation, or both are the same error. -/
inductive Agree (related : σ → σ → Prop) : Except ε σ → Except ε σ → Prop
  | ok {first second : σ} : related first second → Agree related (.ok first) (.ok second)
  | error (fault : ε) : Agree related (.error fault) (.error fault)

/-- Unwinding: if every admitted action keeps related states related when both take it, and every
removable one when only the first does, then removing actions keeps outcomes in agreement. -/
theorem Removed.run {admitted removable : ι → Prop} {related : σ → σ → Prop}
    (hkeep : ∀ first second action, related first second → admitted action →
      Agree related (step first action) (step second action))
    (hdrop : ∀ first second action, related first second → admitted action → removable action →
      ∃ next, step first action = .ok next ∧ related next second)
    {actions fewer : List ι} (hremoved : Removed admitted removable actions fewer) :
    ∀ {first second : σ}, related first second →
      Agree related (Execution.run step first actions) (Execution.run step second fewer) := by
  induction hremoved with
  | nil => exact Agree.ok
  | keep action hadmitted _ ih =>
    intro first second hrelated
    have hboth := hkeep first second action hrelated hadmitted
    unfold Execution.run
    cases hfirst : step first action <;> cases hsecond : step second action <;>
      rw [hfirst, hsecond] at hboth <;> cases hboth
    · exact Agree.error _
    · rename_i hnext
      exact ih hnext
  | drop action hadmitted hremovable _ ih =>
    intro first second hrelated
    obtain ⟨next, hstep, hnext⟩ := hdrop first second action hrelated hadmitted hremovable
    rw [run_cons_ok hstep]
    exact ih hnext

end TradeServers.Execution
