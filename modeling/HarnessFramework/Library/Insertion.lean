import Mathlib.Logic.Relation

/-!
# Inserting a vertex behind another

What follows a vertex is made to follow a new vertex, which follows the first. Contracting the new
vertex into the old one turns paths back into paths, so the insertion changes neither what is reachable
between old vertices nor whether there is a cycle.

## Main definitions

* `InsertedAfter` — the edges after an insertion
* `Acyclic` — no vertex is reachable from itself

## Main results

* `transGen_insertedAfter_iff` — old vertices are reachable from each other as before
* `acyclic_insertedAfter` — an insertion makes no cycle
-/

namespace HarnessFramework

open Relation

variable {α : Type}

/-- No vertex is reachable from itself. -/
def Acyclic (E : α → α → Prop) : Prop := ∀ x, ¬TransGen E x x

/-- The edges after a vertex was inserted behind another: it takes over the edges out of it. -/
def InsertedAfter (E : α → α → Prop) (selected inserted x y : α) : Prop :=
  x ≠ selected ∧ E x y ∨ x = inserted ∧ E selected y ∨ x = selected ∧ y = inserted

section

variable {E : α → α → Prop} {selected inserted : α}

/-- A path without the new vertex is still there. -/
theorem transGen_insertedAfter {x y : α} (h : TransGen E x y) :
    TransGen (InsertedAfter E selected inserted) x y := by
  refine TransGen.trans_induction_on h (fun {x y} hxy => ?_) fun _ _ => TransGen.trans
  by_cases hx : x = selected
  · exact .tail (.single (.inr (.inr ⟨hx, rfl⟩))) (.inr (.inl ⟨rfl, hx ▸ hxy⟩))
  · exact .single (.inl ⟨hx, hxy⟩)

/-- The new vertex is no vertex of the edges before. -/
structure Fresh (E : α → α → Prop) (inserted : α) : Prop where
  source : ∀ x, ¬E inserted x
  target : ∀ x, ¬E x inserted

open Classical in
/-- The vertex that a vertex is contracted into. -/
noncomputable def contract (selected inserted x : α) : α := if x = inserted then selected else x

theorem contract_inserted : contract selected inserted inserted = selected := if_pos rfl

theorem contract_of_ne {x : α} (h : x ≠ inserted) : contract selected inserted x = x := if_neg h

/-- **Contracting the new vertex turns a path into a path**, except for the edge that was added. -/
theorem transGen_contract (hfresh : Fresh E inserted) (hne : selected ≠ inserted) {x y : α}
    (h : TransGen (InsertedAfter E selected inserted) x y) :
    TransGen E (contract selected inserted x) (contract selected inserted y) ∨
      x = selected ∧ y = inserted := by
  have hold : ∀ {x y}, E x y → contract selected inserted x = x ∧ contract selected inserted y = y := by
    refine fun {x y} hxy => ⟨contract_of_ne ?_, contract_of_ne ?_⟩
    · rintro rfl
      exact hfresh.source y hxy
    · rintro rfl
      exact hfresh.target x hxy
  induction h with
  | single hstep =>
    rcases hstep with ⟨-, hxy⟩ | ⟨rfl, hxy⟩ | hadded
    · rw [(hold hxy).1, (hold hxy).2]
      exact .inl (.single hxy)
    · rw [contract_inserted, (hold hxy).2]
      exact .inl (.single hxy)
    · exact .inr hadded
  | @tail z y _ hstep ih =>
    refine .inl ?_
    rcases hstep with ⟨-, hzy⟩ | ⟨rfl, hzy⟩ | ⟨rfl, rfl⟩
    · rw [(hold hzy).2]
      rcases ih with ih | ⟨-, rfl⟩
      · rw [(hold hzy).1] at ih
        exact ih.tail hzy
      · exact absurd hzy (hfresh.source y)
    · rw [(hold hzy).2]
      rcases ih with ih | ⟨rfl, -⟩
      · rw [contract_inserted] at ih
        exact ih.tail hzy
      · rw [contract_of_ne hne]
        exact .single hzy
    · rcases ih with ih | ⟨-, heq⟩
      · rw [contract_of_ne hne] at ih
        rwa [contract_inserted]
      · exact absurd heq hne

/-- **Old vertices are reachable from each other as before.** -/
theorem transGen_insertedAfter_iff (hfresh : Fresh E inserted) (hne : selected ≠ inserted) {x y : α}
    (hx : x ≠ inserted) (hy : y ≠ inserted) :
    TransGen (InsertedAfter E selected inserted) x y ↔ TransGen E x y := by
  refine ⟨fun h => ?_, transGen_insertedAfter⟩
  rcases transGen_contract hfresh hne h with h | ⟨-, rfl⟩
  · rwa [contract_of_ne hx, contract_of_ne hy] at h
  · exact absurd rfl hy

/-- **An insertion makes no cycle.** -/
theorem acyclic_insertedAfter (hfresh : Fresh E inserted) (hne : selected ≠ inserted) (h : Acyclic E) :
    Acyclic (InsertedAfter E selected inserted) := by
  intro x hx
  rcases transGen_contract hfresh hne hx with hcycle | ⟨hselected, hinserted⟩
  · exact h _ hcycle
  · exact hne (hselected.symm.trans hinserted)

end

end HarnessFramework
