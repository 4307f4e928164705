import Mathlib.Data.List.Nodup

/-!
# Walks

A walk over a list that looks at each element together with its index and with the elements before it, and
says something about it.

## Main definitions

* `walk` — everything that is said
* `Each` — a property of every element and those before it

## Main results

* `forall_mem_walk` — what holds of everything that is said
* `each_and`, `each_forall`, `each_notMem` — properties of every element
-/

namespace HarnessFramework

variable {α β κ : Type}

/-- What is said of the elements of a list, with their indices and those before them. -/
def walk (say : List α → ℕ → α → List β) : List α → ℕ → List α → List β
  | _, _, [] => []
  | before, index, a :: as => say before index a ++ walk say (before ++ [a]) (index + 1) as

/-- A property of every element and those before it. -/
def Each (P : List α → α → Prop) : List α → List α → Prop
  | _, [] => True
  | before, a :: as => P before a ∧ Each P (before ++ [a]) as

theorem forall_mem_walk {say : List α → ℕ → α → List β} {Q : β → Prop} {P : List α → α → Prop}
    (h : ∀ before index a, (∀ b ∈ say before index a, Q b) ↔ P before a) (before : List α) (index : ℕ)
    (as : List α) : (∀ b ∈ walk say before index as, Q b) ↔ Each P before as := by
  induction as generalizing before index with
  | nil => simp [walk, Each]
  | cons a as ih => rw [walk, Each, List.forall_mem_append, h, ih]

theorem each_and {P P' : List α → α → Prop} (before as : List α) :
    Each (fun before a => P before a ∧ P' before a) before as ↔ Each P before as ∧ Each P' before as := by
  induction as generalizing before with
  | nil => simp [Each]
  | cons a as ih =>
    rw [Each, Each, Each, ih]
    tauto

theorem each_forall {P : α → Prop} (before as : List α) :
    Each (fun _ a => P a) before as ↔ ∀ a ∈ as, P a := by
  induction as generalizing before with
  | nil => simp [Each]
  | cons a as ih => rw [Each, ih, List.forall_mem_cons]

/-- **No element has a key of one before it exactly if the keys are distinct.** -/
theorem each_notMem {key : α → Option κ} (before as : List α) :
    Each (fun before a => ∀ k ∈ key a, k ∉ before.filterMap key) before as ↔
      (as.filterMap key).Nodup ∧ ∀ k ∈ as.filterMap key, k ∉ before.filterMap key := by
  induction as generalizing before with
  | nil => simp [Each]
  | cons a as ih =>
    rw [Each, ih]
    cases hkey : key a with
    | none => simp [List.filterMap_append, hkey]
    | some k =>
      simp only [Option.mem_some_iff, forall_eq', List.filterMap_append, List.filterMap_cons, hkey,
        List.filterMap_nil, List.mem_append, List.mem_singleton, List.nodup_cons, List.forall_mem_cons]
      constructor
      · rintro ⟨hfirst, hnodup, hrest⟩
        exact ⟨⟨fun hmem => hrest k hmem (.inr rfl), hnodup⟩, hfirst,
          fun l hl hbefore => hrest l hl (.inl hbefore)⟩
      · rintro ⟨⟨hnot, hnodup⟩, hfirst, hrest⟩
        refine ⟨hfirst, hnodup, ?_⟩
        rintro l hl (hbefore | rfl)
        · exact hrest l hl hbefore
        · exact hnot hl

end HarnessFramework
