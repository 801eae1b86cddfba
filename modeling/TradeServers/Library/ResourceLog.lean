import Mathlib.Data.List.Count
import Mathlib.Data.List.Pairwise

/-!
# Logs of resources

A log records what a program does with resources that it acquires and has to release: the
acquisitions, the uses and the releases, in their order. `Proper` says that no resource is used or
released after its release, and `Balanced` that every resource that was acquired is released exactly
once.
-/

set_option autoImplicit false
set_option relaxedAutoImplicit false

namespace TradeServers.ResourceLog

/-- An entry of a log. A use is marked with what the resource is used for. -/
inductive Entry (κ ρ : Type*)
  | acquire (resource : ρ)
  | use (operation : κ) (resource : ρ)
  | release (resource : ρ)
deriving DecidableEq

variable {κ ρ : Type*} {log more : List (Entry κ ρ)} {resource : ρ}

/-- The entry needs the resource. -/
def Entry.Needs (resource : ρ) : Entry κ ρ → Prop
  | .acquire _ => False
  | .use _ used => used = resource
  | .release released => released = resource

/-- The resource was acquired and not released. -/
structure Held (log : List (Entry κ ρ)) (resource : ρ) : Prop where
  acquired : .acquire resource ∈ log
  unreleased : .release resource ∉ log

/-- Nothing needs a resource after its release. -/
def Proper (log : List (Entry κ ρ)) : Prop :=
  log.Pairwise fun earlier later ↦
    ∀ resource, earlier = .release resource → ¬ later.Needs resource

/-- Every resource that was acquired is released exactly once. -/
def Balanced [DecidableEq κ] [DecidableEq ρ] (log : List (Entry κ ρ)) : Prop :=
  ∀ resource, .acquire resource ∈ log → log.count (.release resource) = 1

theorem proper_nil : Proper ([] : List (Entry κ ρ)) := List.Pairwise.nil

/-- What comes behind a proper log must be proper in itself, and need nothing released before. -/
theorem proper_append_iff :
    Proper (log ++ more) ↔ Proper log ∧ Proper more ∧
      ∀ resource, .release resource ∈ log → ∀ entry ∈ more, ¬ entry.Needs resource := by
  unfold Proper
  rw [List.pairwise_append]
  refine and_congr_right fun _ ↦ and_congr_right fun _ ↦ ?_
  constructor
  · intro hcross resource hreleased entry hentry
    exact hcross _ hreleased entry hentry resource rfl
  · rintro hcross _ hreleased entry hentry resource rfl
    exact hcross resource hreleased entry hentry

/-- Uses of a resource that has not been released keep a log proper. -/
theorem Proper.append_uses (hproper : Proper log) (hheld : .release resource ∉ log)
    (operations : List κ) : Proper (log ++ operations.map (.use · resource)) := by
  refine proper_append_iff.mpr ⟨hproper, ?_, ?_⟩
  · refine List.pairwise_map.mpr (List.pairwise_of_forall fun _ _ other hrelease ↦ ?_)
    cases hrelease
  · intro other hreleased entry hentry
    obtain ⟨operation, -, rfl⟩ := List.mem_map.mp hentry
    rintro rfl
    exact hheld hreleased

/-- The first release of a resource keeps a log proper. -/
theorem Proper.append_release (hproper : Proper log) (hheld : .release resource ∉ log) :
    Proper (log ++ [.release resource]) := by
  refine proper_append_iff.mpr ⟨hproper, List.pairwise_singleton _ _, ?_⟩
  intro other hreleased entry hentry
  rw [List.mem_singleton.mp hentry]
  rintro rfl
  exact hheld hreleased

/-- An acquisition keeps a log proper. -/
theorem Proper.append_acquire (hproper : Proper log) (resource : ρ) :
    Proper (log ++ [.acquire resource]) := by
  refine proper_append_iff.mpr ⟨hproper, List.pairwise_singleton _ _, ?_⟩
  intro other _ entry hentry
  rw [List.mem_singleton.mp hentry]
  exact not_false

/-! ### Releases and acquisitions of a longer log -/

@[simp] theorem acquire_mem_append_uses {used : ρ} (operations : List κ) :
    .acquire resource ∈ log ++ operations.map (.use · used) ↔ .acquire resource ∈ log := by
  simp

@[simp] theorem release_mem_append_uses {used : ρ} (operations : List κ) :
    .release resource ∈ log ++ operations.map (.use · used) ↔ .release resource ∈ log := by
  simp

/-- Uses do not change what is held. -/
theorem held_append_uses_iff {used : ρ} (operations : List κ) :
    Held (log ++ operations.map (.use · used)) resource ↔ Held log resource := by
  constructor
  · rintro ⟨hacquired, hunreleased⟩
    exact ⟨(acquire_mem_append_uses operations).mp hacquired,
      mt (release_mem_append_uses operations).mpr hunreleased⟩
  · rintro ⟨hacquired, hunreleased⟩
    exact ⟨(acquire_mem_append_uses operations).mpr hacquired,
      mt (release_mem_append_uses operations).mp hunreleased⟩

/-- A release takes away the resource that is released. -/
theorem held_append_release_iff {released : ρ} :
    Held (log ++ [.release released]) resource ↔ Held log resource ∧ resource ≠ released := by
  constructor
  · rintro ⟨hacquired, hunreleased⟩
    simp only [List.mem_append, List.mem_singleton, reduceCtorEq, or_false, Entry.release.injEq,
      not_or] at hacquired hunreleased
    exact ⟨⟨hacquired, hunreleased.1⟩, hunreleased.2⟩
  · rintro ⟨⟨hacquired, hunreleased⟩, hother⟩
    refine ⟨List.mem_append_left _ hacquired, ?_⟩
    simp [hunreleased, hother]

/-- An acquisition of a resource that was not released makes it held. -/
theorem held_append_acquire_iff {acquired : ρ} (hnew : .release acquired ∉ log) :
    Held (log ++ [.acquire acquired]) resource ↔ Held log resource ∨ resource = acquired := by
  constructor
  · rintro ⟨hacquired, hunreleased⟩
    rcases List.mem_append.mp hacquired with hold | hlast
    · exact .inl ⟨hold, fun hreleased ↦ hunreleased (List.mem_append_left _ hreleased)⟩
    · exact .inr (Entry.acquire.inj (List.mem_singleton.mp hlast))
  · rintro (⟨hacquired, hunreleased⟩ | rfl)
    · refine ⟨List.mem_append_left _ hacquired, ?_⟩
      simp [hunreleased]
    · exact ⟨List.mem_append_right _ List.mem_cons_self, by simp [hnew]⟩

section Balance

variable [DecidableEq κ] [DecidableEq ρ]

/-- A proper log contains no second release. -/
theorem Proper.count_release_le (hproper : Proper log) (resource : ρ) :
    log.count (.release resource) ≤ 1 := by
  by_contra hmany
  have hsub : (List.replicate 2 (.release resource)).Sublist log :=
    List.replicate_sublist_iff.mpr (by omega)
  have hpair : Proper (List.replicate 2 (.release resource) : List (Entry κ ρ)) :=
    List.Pairwise.sublist hsub hproper
  exact (List.pairwise_cons.mp hpair).1 _ List.mem_cons_self resource rfl rfl

/-- A proper log is balanced when nothing is held at its end. -/
theorem Proper.balanced_iff (hproper : Proper log) :
    Balanced log ↔ ∀ resource, ¬ Held log resource := by
  constructor
  · intro hbalanced resource hheld
    have hone := hbalanced resource hheld.acquired
    rw [List.count_eq_zero_of_not_mem hheld.unreleased] at hone
    exact absurd hone (by decide)
  · intro hnone resource hacquired
    have hreleased : .release resource ∈ log := by
      by_contra hunreleased
      exact hnone resource ⟨hacquired, hunreleased⟩
    have hpos := List.count_pos_iff.mpr hreleased
    have hle := hproper.count_release_le resource
    omega

end Balance

end TradeServers.ResourceLog
