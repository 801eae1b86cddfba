import Mathlib.Data.Seq.Computation
import Mathlib.Logic.Relation

/-!
# Loops that may not end

`loop step` runs a loop whose body either ends it with a result or goes on with a new state. It is a
`Computation`, so that a loop that never ends has no result.
-/

set_option autoImplicit false
set_option relaxedAutoImplicit false

namespace TradeServers.Loop

universe u

variable {σ : Type*} {α β : Type u}

/-- The loop with a body, from a state. -/
def loop (step : σ → α ⊕ σ) (state : σ) : Computation α := Computation.corec step state

variable {step : σ → α ⊕ σ} {state next : σ} {result last : α}

/-- A loop whose body ends it. -/
theorem mem_loop_of_end (hstep : step state = .inl last) :
    result ∈ loop step state ↔ result = last := by
  have hdestruct : (loop step state).destruct = .inl last := by
    rw [loop, Computation.corec_eq, hstep]
    rfl
  rw [Computation.destruct_eq_pure hdestruct, Computation.mem_pure_iff]

theorem loop_of_next (hstep : step state = .inr next) :
    loop step state = (loop step next).think := by
  apply Computation.destruct_eq_think
  rw [loop, Computation.corec_eq, hstep]
  rfl

/-- A loop whose body goes on. -/
theorem mem_loop_of_next (hstep : step state = .inr next) :
    result ∈ loop step state ↔ result ∈ loop step next := by
  rw [loop_of_next hstep]
  exact ⟨Computation.of_think_mem, Computation.think_mem⟩

/-- An invariant of the body holds in the state in which the loop ends. -/
theorem exists_end_of_mem_loop (invariant : σ → Prop) (hstart : invariant state)
    (hbody : ∀ {state next}, invariant state → step state = .inr next → invariant next)
    (hresult : result ∈ loop step state) : ∃ last, invariant last ∧ step last = .inl result := by
  obtain ⟨rounds, hrounds⟩ := hresult
  induction rounds generalizing state with
  | zero =>
    cases hstep : step state with
    | inl last =>
      have hresult := (mem_loop_of_end hstep).mp ⟨0, hrounds⟩
      exact ⟨state, hstart, hresult ▸ hstep⟩
    | inr next =>
      rw [loop_of_next hstep] at hrounds
      cases hrounds
  | succ rounds ih =>
    cases hstep : step state with
    | inl last =>
      have hresult := (mem_loop_of_end hstep).mp ⟨rounds + 1, hrounds⟩
      exact ⟨state, hstart, hresult ▸ hstep⟩
    | inr next =>
      rw [loop_of_next hstep] at hrounds
      exact ih (hbody hstart hstep) hrounds

/-- The states that a loop comes to. -/
def Reached (step : σ → α ⊕ σ) (start : σ) : σ → Prop :=
  Relation.ReflTransGen (fun state next ↦ step state = .inr next) start

/-- A loop ends in a state that it comes to. -/
theorem exists_reached_of_mem_loop (hresult : result ∈ loop step state) :
    ∃ last, Reached step state last ∧ step last = .inl result :=
  exists_end_of_mem_loop (Reached step state) Relation.ReflTransGen.refl
    (fun hreached hstep ↦ hreached.tail hstep) hresult

/-- An invariant of the body holds in every state that the loop comes to. -/
theorem Reached.invariant {start : σ} (invariant : σ → Prop) (hstart : invariant start)
    (hbody : ∀ {state next}, invariant state → step state = .inr next → invariant next)
    (hreached : Reached step start state) : invariant state := by
  induction hreached with
  | refl => exact hstart
  | tail _ hstep ih => exact hbody ih hstep

/-- A loop whose body changes nothing never ends. -/
theorem not_mem_loop_of_fixed (hstep : step state = .inr state) : result ∉ loop step state := by
  intro hresult
  obtain ⟨last, rfl, hlast⟩ := exists_end_of_mem_loop (· = state) rfl (fun hsame hnext ↦ by
    rw [hsame, hstep] at hnext
    exact (Sum.inr.inj hnext).symm) hresult
  rw [hstep] at hlast
  cases hlast

/-- The results of two computations, one after the other. -/
theorem mem_bind_iff {first : Computation α} {second : α → Computation β} {result : β} :
    result ∈ first >>= second ↔ ∃ middle ∈ first, result ∈ second middle :=
  ⟨Computation.exists_of_mem_bind, fun ⟨_, hfirst, hsecond⟩ ↦ Computation.mem_bind hfirst hsecond⟩

end TradeServers.Loop
