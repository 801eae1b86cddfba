import Mathlib.Data.List.Count
import Mathlib.Data.List.Induction
import Mathlib.Tactic.SplitIfs

/-!
# Logs of a lock

A log records what threads do with one lock and with the data that it guards. `Disciplined` says
that a thread locks only a free lock, unlocks only a lock that it holds, and touches the data only
while it holds the lock. In a disciplined log every acquisition is followed by one release of the
same thread before the next acquisition (`Disciplined.count_unlock`).
-/

set_option autoImplicit false
set_option relaxedAutoImplicit false

namespace TradeServers.LockLog

/-- What a thread does: it acquires or releases the lock, or touches the guarded data. -/
inductive Action (τ : Type*)
  | lock (thread : τ)
  | unlock (thread : τ)
  | touch (thread : τ)
deriving DecidableEq

variable {τ : Type*}

/-- The holder of the lock after an action. -/
def Action.holder (holder : Option τ) : Action τ → Option τ
  | .lock thread => some thread
  | .unlock _ => none
  | .touch _ => holder

/-- The holder that an action needs. -/
def Action.needed : Action τ → Option τ
  | .lock _ => none
  | .unlock thread => some thread
  | .touch thread => some thread

/-- The holder of the lock after a log. -/
def holderAfter (holder : Option τ) (log : List (Action τ)) : Option τ :=
  log.foldl Action.holder holder

/-- Every action of the log finds the lock as it needs it. -/
def Disciplined : Option τ → List (Action τ) → Prop
  | _, [] => True
  | holder, action :: log => holder = action.needed ∧ Disciplined (action.holder holder) log

instance decidableDisciplined [DecidableEq τ] :
    (holder : Option τ) → (log : List (Action τ)) → Decidable (Disciplined holder log)
  | _, [] => .isTrue trivial
  | holder, action :: log =>
    letI := decidableDisciplined (action.holder holder) log
    inferInstanceAs (Decidable (_ ∧ _))

variable {holder : Option τ} {log more : List (Action τ)} {thread : τ}

theorem disciplined_append_iff :
    Disciplined holder (log ++ more) ↔
      Disciplined holder log ∧ Disciplined (holderAfter holder log) more := by
  induction log generalizing holder with
  | nil => exact (and_iff_right trivial).symm
  | cons action log ih =>
    rw [List.cons_append, Disciplined, Disciplined, ih, and_assoc]
    rfl

theorem holderAfter_append :
    holderAfter holder (log ++ more) = holderAfter (holderAfter holder log) more :=
  List.foldl_append

/-- An action at the end of a log. -/
theorem disciplined_concat_iff {action : Action τ} :
    Disciplined holder (log ++ [action]) ↔
      Disciplined holder log ∧ holderAfter holder log = action.needed := by
  rw [disciplined_append_iff]
  exact and_congr_right fun _ ↦ and_iff_left trivial

theorem holderAfter_concat {action : Action τ} :
    holderAfter holder (log ++ [action]) = action.holder (holderAfter holder log) :=
  holderAfter_append

variable [DecidableEq τ]

/-- In every disciplined log a thread has released the lock as often as it has acquired it, but for
the acquisition that it holds now. -/
theorem Disciplined.count_unlock (hdisciplined : Disciplined none log) (thread : τ) :
    log.count (.unlock thread) + (if holderAfter none log = some thread then 1 else 0) =
      log.count (.lock thread) := by
  induction log using List.reverseRecOn with
  | nil => rfl
  | append_singleton log action ih =>
    obtain ⟨hbefore, hneeded⟩ := disciplined_concat_iff.mp hdisciplined
    have hcount := ih hbefore
    rw [List.count_append, List.count_append, holderAfter_concat]
    cases action with
    | lock other =>
      rw [show holderAfter none log = none from hneeded] at hcount
      by_cases hsame : other = thread
      · subst hsame
        simp [Action.holder] at hcount ⊢
        omega
      · simp [Action.holder, hsame] at hcount ⊢
        omega
    | unlock other =>
      rw [show holderAfter none log = some other from hneeded] at hcount
      by_cases hsame : other = thread
      · subst hsame
        simp [Action.holder] at hcount ⊢
        omega
      · simp [Action.holder, hsame] at hcount ⊢
        omega
    | touch other => exact hcount

end TradeServers.LockLog
