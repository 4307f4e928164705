import Mathlib.Data.List.Sort

/-!
# Stable sorts

A comparison that may hold both ways between different values sorts a list in one stable way: ordered,
with the values that tie in the order they had.

## Main definitions

* `TotalPreorder` — comparisons that values can be sorted by
* `Tied` — values that compare both ways
* `StableSort` — what a stable sort of a list is

## Main results

* `TotalPreorder.stableSort_mergeSort` — the merge sort is stable
* `TotalPreorder.le_of_head?_mergeSort` — it puts a least value first
-/

namespace HarnessFramework

variable {α β : Type} {le : α → α → Prop}

/-- A comparison that values can be sorted by: some may compare both ways. -/
structure TotalPreorder (le : α → α → Prop) : Prop where
  trans : ∀ {a b c}, le a b → le b c → le a c
  total : ∀ a b, le a b ∨ le b a

/-- Values that compare both ways. -/
def Tied (le : α → α → Prop) (a b : α) : Prop := le a b ∧ le b a

instance [DecidableRel le] : DecidableRel (Tied le) := fun _ _ => inferInstanceAs (Decidable (_ ∧ _))

/-- A list in the order of a comparison, where values that tie keep the order they had. -/
structure StableSort (le : α → α → Prop) [DecidableRel le] (items result : List α) : Prop where
  perm : result.Perm items
  ordered : result.Pairwise le
  stable : ∀ a, result.filter (fun b => Tied le a b) = items.filter (fun b => Tied le a b)

namespace TotalPreorder

theorem refl (h : TotalPreorder le) (a : α) : le a a := (h.total a a).elim id id

/-- The reversed comparison. -/
theorem swap (h : TotalPreorder le) : TotalPreorder fun a b => le b a where
  trans hab hbc := h.trans hbc hab
  total a b := h.total b a

/-- Values compared by something they have. -/
theorem comap (h : TotalPreorder le) (f : β → α) : TotalPreorder fun a b => le (f a) (f b) where
  trans hab hbc := h.trans hab hbc
  total a b := h.total (f a) (f b)

theorem of_linearOrder [LinearOrder α] : TotalPreorder (α := α) (· ≤ ·) where
  trans := le_trans
  total := le_total

/-! ## The merge sort -/

variable [DecidableRel le]

theorem pairwise_mergeSort (h : TotalPreorder le) (items : List α) :
    (items.mergeSort fun a b => decide (le a b)).Pairwise le := by
  refine (List.pairwise_mergeSort (fun a b c hab hbc => ?_) (fun a b => ?_) items).imp of_decide_eq_true
  · exact decide_eq_true (h.trans (of_decide_eq_true hab) (of_decide_eq_true hbc))
  · simpa using h.total a b

/-- The values that tie with one are a sorted part of a list, and a sort keeps sorted parts. -/
theorem filter_mergeSort (h : TotalPreorder le) (items : List α) (a : α) :
    (items.mergeSort fun a b => decide (le a b)).filter (fun b => Tied le a b)
      = items.filter fun b => Tied le a b := by
  have hsorted : (items.filter fun b => Tied le a b).Pairwise fun b c => decide (le b c) = true := by
    refine List.pairwise_of_forall_mem_list fun b hb c hc => decide_eq_true ?_
    exact h.trans (of_decide_eq_true (List.mem_filter.mp hb).2).2
      (of_decide_eq_true (List.mem_filter.mp hc).2).1
  have htrans : ∀ a b c, decide (le a b) = true → decide (le b c) = true → decide (le a c) = true :=
    fun a b c hab hbc => decide_eq_true (h.trans (of_decide_eq_true hab) (of_decide_eq_true hbc))
  have htotal : ∀ a b, (decide (le a b) || decide (le b a)) = true := fun a b => by simpa using h.total a b
  have hsublist := List.sublist_mergeSort htrans htotal hsorted (List.filter_sublist (l := items))
  have hfilter := hsublist.filter fun b => decide (Tied le a b)
  rw [List.filter_filter] at hfilter
  simp only [Bool.and_self] at hfilter
  have hperm := (List.mergeSort_perm items fun a b => decide (le a b)).filter fun b => decide (Tied le a b)
  exact (hfilter.eq_of_length hperm.length_eq.symm).symm

/-- **The merge sort is stable.** -/
theorem stableSort_mergeSort (h : TotalPreorder le) (items : List α) :
    StableSort le items (items.mergeSort fun a b => decide (le a b)) where
  perm := List.mergeSort_perm _ _
  ordered := h.pairwise_mergeSort items
  stable := h.filter_mergeSort items

/-- A sort puts a least value first. -/
theorem le_of_head?_mergeSort (h : TotalPreorder le) {items : List α} {first : α}
    (hfirst : (items.mergeSort fun a b => decide (le a b)).head? = some first) {a : α} (ha : a ∈ items) :
    le first a := by
  have hpairwise := h.pairwise_mergeSort items
  have hmem : a ∈ items.mergeSort fun a b => decide (le a b) := List.mem_mergeSort.mpr ha
  obtain ⟨rest, hrest⟩ := List.head?_eq_some_iff.mp hfirst
  rw [hrest] at hpairwise hmem
  rcases List.mem_cons.mp hmem with rfl | hmem
  · exact h.refl a
  · exact (List.pairwise_cons.mp hpairwise).1 a hmem

end TotalPreorder

end HarnessFramework
