import Mathlib.Data.List.Basic
import Mathlib.Logic.Function.Basic
import Mathlib.Logic.Relation
import Mathlib.Tactic.Common

/-!
# Runs

A system whose step is a partial function of an action, and which keeps its parties under numbers.

## Main results

* `reflTransGen_foldlM` — actions that happen one after another are a run
* `forall_update_some` — what holds of all parties, after one of them has moved
-/

namespace HarnessFramework

section

variable {σ α : Type} {act : σ → α → Option σ} {s s' : σ}

/-- Actions that happen one after another are a run. -/
theorem reflTransGen_foldlM {actions : List α} (h : actions.foldlM act s = some s') :
    Relation.ReflTransGen (fun s s' => ∃ action, act s action = some s') s s' := by
  induction actions generalizing s with
  | nil =>
    rw [List.foldlM_nil] at h
    obtain rfl := Option.some_inj.mp h
    exact .refl
  | cons action actions ih =>
    rw [List.foldlM_cons] at h
    obtain ⟨s'', hact, hrest⟩ := Option.bind_eq_some_iff.mp h
    exact .head ⟨action, hact⟩ (ih hrest)

end

/-- What holds of all values of a map holds of all after one was put in. -/
theorem forall_update_some {β : Type} {m : ℕ → Option β} {id : ℕ} {x : β} {P : ℕ → β → Prop}
    (h : ∀ i y, m i = some y → i ≠ id → P i y) (hx : P id x) :
    ∀ i y, Function.update m id (some x) i = some y → P i y := by
  intro i y hy
  by_cases hi : i = id
  · subst hi
    rw [Function.update_self, Option.some.injEq] at hy
    exact hy ▸ hx
  · rw [Function.update_of_ne hi] at hy
    exact h i y hy hi

end HarnessFramework
