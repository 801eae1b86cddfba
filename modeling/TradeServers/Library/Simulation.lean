import Mathlib.Algebra.BigOperators.Fin
import Mathlib.Algebra.GroupWithZero.Nat
import Mathlib.Algebra.Order.Group.Nat
import Mathlib.Tactic.Abel
import TradeServers.Library.Execution

/-!
# Events of runs, simulations and potentials

Some of the steps of a run are events: what an observer sees of them. The events of a run can be the
actions of a second system, which the first one then simulates, or the steps that a potential pays
for.

- `run_simulates`: if every step is matched by its event in a second system, so is every run.
- `run_simulates_of`: the same where the second system only fails in runs that end badly.
- `run_refines`: if every step is a run of a second system on a part of the state, so is every run.
- `length_trace_le`: a potential that pays for every event bounds the number of events of a run.
- `exists_run_of_progress`: when some step always leaves less to do, some run leads to rest.
- `sum_update_add`: what one of several processes changes in the sum of a weight over all of them.
-/

set_option autoImplicit false
set_option relaxedAutoImplicit false

namespace TradeServers.Execution

variable {σ ι ε α : Type*}

/-- The events of a run, in order; a step shows at most one. -/
def trace (step : σ → ι → Except ε σ) (event : σ → ι → Option α) : σ → List ι → List α
  | _, [] => []
  | state, action :: actions =>
    match step state action with
    | .ok next => (event state action).toList ++ trace step event next actions
    | .error _ => []

variable {step : σ → ι → Except ε σ} {event : σ → ι → Option α}

@[simp] theorem trace_nil (state : σ) : trace step event state [] = [] := rfl

theorem trace_cons {state next : σ} {action : ι} (hstep : step state action = .ok next)
    (actions : List ι) : trace step event state (action :: actions) =
      (event state action).toList ++ trace step event next actions := by
  rw [trace, hstep]

/-! ### Simulations -/

section Simulations

variable {τ δ : Type*} {above : τ → α → Except δ τ} {related : σ → τ → Prop}

/-- What every step inherits from its end, a run inherits from its end. -/
theorem run_inherited {good : σ → Prop}
    (hinherited : ∀ state action next, step state action = .ok next → good next → good state)
    {actions : List ι} :
    ∀ {state final : σ}, run step state actions = .ok final → good final → good state := by
  induction actions with
  | nil =>
    intro state final hrun hgood
    cases hrun
    exact hgood
  | cons action actions ih =>
    intro state final hrun hgood
    obtain ⟨next, hstep, hrest⟩ := run_cons_eq_ok_iff.mp hrun
    exact hinherited state action next hstep (ih hrest hgood)

/-- If every step from related states is matched, a step without event by staying and one with an
event by that event, then the trace of a run is a run of the second system between related states.
A condition on the end of the run that earlier states inherit may be used for every step. -/
theorem run_simulates_of {good : σ → Prop}
    (hinherited : ∀ state action next, step state action = .ok next → good next → good state)
    (hmatched : ∀ state action next upper, related state upper → good next →
      step state action = .ok next →
      ∃ after, run above upper (event state action).toList = .ok after ∧ related next after)
    {actions : List ι} :
    ∀ {state final : σ} {upper : τ}, related state upper → good final →
      run step state actions = .ok final →
      ∃ after, run above upper (trace step event state actions) = .ok after ∧
        related final after := by
  induction actions with
  | nil =>
    intro state final upper hrelated _ hrun
    cases hrun
    exact ⟨upper, rfl, hrelated⟩
  | cons action actions ih =>
    intro state final upper hrelated hgood hrun
    obtain ⟨next, hstep, hrest⟩ := run_cons_eq_ok_iff.mp hrun
    have hnext : good next := run_inherited hinherited hrest hgood
    obtain ⟨middle, hfirst, hmiddle⟩ := hmatched state action next upper hrelated hnext hstep
    obtain ⟨after, hlater, hafter⟩ := ih hmiddle hgood hrest
    rw [trace_cons hstep]
    exact ⟨after, run_append_eq_ok_iff.mpr ⟨middle, hfirst, hlater⟩, hafter⟩

/-- The same where every step is matched without a condition. -/
theorem run_simulates
    (hmatched : ∀ state action next upper, related state upper → step state action = .ok next →
      ∃ after, run above upper (event state action).toList = .ok after ∧ related next after)
    {actions : List ι} {state final : σ} {upper : τ} (hrelated : related state upper)
    (hrun : run step state actions = .ok final) :
    ∃ after, run above upper (trace step event state actions) = .ok after ∧
      related final after :=
  have hinherited : ∀ (state : σ) (action : ι) (next : σ), step state action = .ok next →
      True → True := fun _ _ _ _ ↦ id
  run_simulates_of hinherited
    (fun state action next upper hrelated _ hstep ↦ hmatched state action next upper hrelated hstep)
    hrelated trivial hrun

/-- If every step shows a run of the second system, so does every run. -/
theorem run_refines {view : σ → τ}
    (hrefined : ∀ state action next, step state action = .ok next →
      ∃ actions, run above (view state) actions = .ok (view next))
    {actions : List ι} :
    ∀ {state final : σ}, run step state actions = .ok final →
      ∃ upper, run above (view state) upper = .ok (view final) := by
  induction actions with
  | nil =>
    intro state final hrun
    cases hrun
    exact ⟨[], rfl⟩
  | cons action actions ih =>
    intro state final hrun
    obtain ⟨next, hstep, hrest⟩ := run_cons_eq_ok_iff.mp hrun
    obtain ⟨first, hfirst⟩ := hrefined state action next hstep
    obtain ⟨later, hlater⟩ := ih hrest
    exact ⟨first ++ later, run_append_eq_ok_iff.mpr ⟨_, hfirst, hlater⟩⟩

end Simulations

/-! ### Potentials -/

/-- When an event costs one unit of a potential and an action adds no more than its allowance, a run
shows at most as many events as the potential it started with and the allowances of its actions. -/
theorem length_trace_le {good : σ → Prop} {potential : σ → ℕ} {allowance : ι → ℕ}
    (hpreserved : ∀ state action next, good state → step state action = .ok next → good next)
    (hpays : ∀ state action next, good state → step state action = .ok next →
      potential next + (event state action).toList.length ≤ potential state + allowance action)
    {actions : List ι} :
    ∀ {state final : σ}, good state → run step state actions = .ok final →
      (trace step event state actions).length + potential final ≤
        potential state + (actions.map allowance).sum := by
  induction actions with
  | nil =>
    intro state final _ hrun
    cases hrun
    simp
  | cons action actions ih =>
    intro state final hgood hrun
    obtain ⟨next, hstep, hrest⟩ := run_cons_eq_ok_iff.mp hrun
    have hnow := hpays state action next hgood hstep
    have hlater := ih (hpreserved state action next hgood hstep) hrest
    rw [trace_cons hstep, List.length_append, List.map_cons, List.sum_cons]
    omega

/-- When from every good state that is not at rest some permitted step leads to a good state with
less left to do, then permitted steps lead from every good state to rest. -/
theorem exists_run_of_progress {β : Type*} [LT β] [WellFoundedLT β] {good rest : σ → Prop}
    {permitted : ι → Prop} {left : σ → β}
    (hprogress : ∀ state, good state → rest state ∨ ∃ action next, permitted action ∧
      step state action = .ok next ∧ good next ∧ left next < left state) :
    ∀ state, good state → ∃ actions final, (∀ action ∈ actions, permitted action) ∧
      run step state actions = .ok final ∧ good final ∧ rest final := by
  intro state
  induction hleft : left state using WellFoundedLT.induction generalizing state with
  | ind value ih =>
    intro hgood
    rcases hprogress state hgood with hrest | ⟨action, next, hpermitted, hstep, hnext, hless⟩
    · exact ⟨[], state, List.forall_mem_nil _, rfl, hgood, hrest⟩
    · obtain ⟨actions, final, hactions, hrun, hfinal⟩ :=
        ih (left next) (hleft ▸ hless) next rfl hnext
      exact ⟨action :: actions, final, List.forall_mem_cons.mpr ⟨hpermitted, hactions⟩,
        run_cons_eq_ok_iff.mpr ⟨next, hstep, hrun⟩, hfinal⟩

/-! ### Several processes -/

/-- In a sum over the local states of processes, a process that moves exchanges its weight. -/
theorem sum_update_add {κ M : Type*} [Fintype κ] [DecidableEq κ] [AddCommMonoid M] (weight : α → M)
    (states : κ → α) (process : κ) (value : α) :
    ∑ other, weight (Function.update states process value other) + weight (states process) =
      ∑ other, weight (states other) + weight value := by
  have hrest : ∑ other ∈ Finset.univ.erase process,
      weight (Function.update states process value other) =
      ∑ other ∈ Finset.univ.erase process, weight (states other) := by
    refine Finset.sum_congr rfl fun other hother ↦ ?_
    rw [Function.update_of_ne (Finset.ne_of_mem_erase hother)]
  rw [← Finset.add_sum_erase _ _ (Finset.mem_univ process), hrest, Function.update_self,
    ← Finset.add_sum_erase _ (fun other ↦ weight (states other)) (Finset.mem_univ process)]
  abel

end TradeServers.Execution
