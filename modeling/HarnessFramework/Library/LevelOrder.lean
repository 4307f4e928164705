import Mathlib.Data.List.Basic

/-!
# Level order

A search that takes values from the front of a queue and puts what is inside them at its end looks at
the values level by level, each level from left to right: what it finds first is on the first level that
has anything to find.

## Main definitions

* `searchQueue` — the search
* `level` — the values on a level
* `levelOrder` — the first levels, one after another

## Main results

* `searchQueue_eq` — the search goes through the levels in order
* `searchQueue_eq_some`, `searchQueue_eq_none` — what it finds
-/

namespace HarnessFramework

namespace LevelOrder

section

variable {α β : Type} (inside : α → List α) (look : α → Option β)

/-- Take values from the front of a queue until one is found, and put what is inside a value at its
end. -/
def searchQueue : ℕ → List α → Option β
  | 0, _ => none
  | _ + 1, [] => none
  | fuel + 1, a :: queue => (look a).or (searchQueue fuel (queue ++ inside a))

/-- The values on a level. -/
def level : ℕ → List α → List α
  | 0, as => as
  | n + 1, as => level n (as.flatMap inside)

/-- The first levels, one after another. -/
def levelOrder : ℕ → List α → List α
  | 0, _ => []
  | n + 1, as => as ++ levelOrder n (as.flatMap inside)

end

section

variable {α β : Type} {inside : α → List α} {look : α → Option β} {weight : α → ℕ}

/-! ## Levels -/

theorem level_nil (n : ℕ) : level inside n [] = [] := by
  induction n with
  | zero => rfl
  | succ n ih => rw [level, List.flatMap_nil, ih]

theorem levelOrder_eq (n : ℕ) (as : List α) :
    levelOrder inside n as = (List.range n).flatMap fun k => level inside k as := by
  induction n generalizing as with
  | zero => rfl
  | succ n ih =>
    rw [levelOrder, ih, List.range_succ_eq_map, List.flatMap_cons, List.flatMap_map]
    rfl

theorem levelOrder_nil (n : ℕ) : levelOrder inside n [] = [] := by
  rw [levelOrder_eq]
  exact List.flatMap_eq_nil_iff.mpr fun k _ => level_nil k

/-! ## The first of a list -/

theorem findSome?_flatMap {γ : Type} (f : γ → List α) (as : List γ) :
    (as.flatMap f).findSome? look = as.findSome? fun a => (f a).findSome? look := by
  induction as with
  | nil => rfl
  | cons a as ih =>
    rw [List.flatMap_cons, List.findSome?_append, ih, List.findSome?_cons]
    cases (f a).findSome? look <;> rfl

theorem findSome?_range {f : ℕ → Option β} {n : ℕ} {b : β} :
    (List.range n).findSome? f = some b ↔ ∃ k < n, f k = some b ∧ ∀ m < k, f m = none := by
  induction n with
  | zero => simp
  | succ n ih =>
    rw [List.range_succ, List.findSome?_append, List.findSome?_singleton, Option.or_eq_some_iff, ih,
      List.findSome?_eq_none_iff]
    constructor
    · rintro (⟨k, hk, hfound⟩ | ⟨hnone, hn⟩)
      · exact ⟨k, by omega, hfound⟩
      · exact ⟨n, by omega, hn, fun m hm => hnone m (List.mem_range.mpr hm)⟩
    · rintro ⟨k, hk, hn, hnone⟩
      rcases Nat.lt_succ_iff_lt_or_eq.mp hk with hlt | rfl
      · exact .inl ⟨k, hlt, hn, hnone⟩
      · exact .inr ⟨fun m hm => hnone m (List.mem_range.mp hm), hn⟩

/-! ## Weights -/

/-- The weight of a list. -/
def total (weight : α → ℕ) : List α → ℕ
  | [] => 0
  | a :: as => weight a + total weight as

theorem total_cons (a : α) (as : List α) : total weight (a :: as) = weight a + total weight as := rfl

theorem total_append (as bs : List α) :
    total weight (as ++ bs) = total weight as + total weight bs := by
  induction as with
  | nil => rw [List.nil_append, total, Nat.zero_add]
  | cons a as ih => rw [List.cons_append, total_cons, total_cons, ih, Nat.add_assoc]

variable (hweight : ∀ a, total weight (inside a) < weight a)
include hweight

/-- A level weighs less than the one before. -/
theorem total_flatMap (as : List α) : total weight (as.flatMap inside) + as.length ≤ total weight as := by
  induction as with
  | nil => exact Nat.le_refl _
  | cons a as ih =>
    have ha := hweight a
    rw [List.flatMap_cons, total_append, total_cons, List.length_cons]
    omega

/-- No level is deeper than the weight. -/
theorem level_eq_nil {n : ℕ} {as : List α} (h : total weight as ≤ n) : level inside n as = [] := by
  induction n generalizing as with
  | zero =>
    have hbound := total_flatMap hweight as
    have hnil : as = [] := List.length_eq_zero_iff.mp (by omega)
    rw [hnil, level_nil]
  | succ n ih =>
    have hbound := total_flatMap hweight as
    by_cases hempty : as = []
    · rw [hempty, level_nil]
    · have hpos := List.length_pos_of_ne_nil hempty
      exact ih (by omega)

/-! ## The search -/

/-- **What stands in front may be looked at first**, and what is inside it put at the end. -/
theorem levelOrder_append (n : ℕ) (as bs : List α) (hn : total weight (as ++ bs) ≤ n) :
    levelOrder inside n (as ++ bs) = as ++ levelOrder inside n (bs ++ as.flatMap inside) := by
  induction n generalizing as bs with
  | zero =>
    have has := total_flatMap hweight (as ++ bs)
    have hnil : as = [] := by
      rw [← List.length_eq_zero_iff]
      rw [List.length_append] at has
      omega
    rw [hnil]
    rfl
  | succ n ih =>
    rw [levelOrder, levelOrder, List.flatMap_append, List.flatMap_append]
    have hbound := total_flatMap hweight (as ++ bs)
    rw [List.flatMap_append] at hbound
    by_cases hempty : as ++ bs = []
    · obtain ⟨rfl, rfl⟩ := List.append_eq_nil_iff.mp hempty
      simp
    · have hpos := List.length_pos_of_ne_nil hempty
      rw [ih (as.flatMap inside) (bs.flatMap inside) (by omega)]
      simp only [List.append_assoc]

/-- **The search goes through the levels in order.** -/
theorem searchQueue_eq (fuel n : ℕ) (queue : List α) (hfuel : total weight queue ≤ fuel)
    (hn : total weight queue ≤ n) :
    searchQueue inside look fuel queue = (levelOrder inside n queue).findSome? look := by
  induction fuel generalizing queue with
  | zero =>
    have hbound := total_flatMap hweight queue
    have hnil : queue = [] := by
      rw [← List.length_eq_zero_iff]
      omega
    rw [hnil, levelOrder_nil, List.findSome?_nil]
    rfl
  | succ fuel ih =>
    cases queue with
    | nil =>
      rw [levelOrder_nil, List.findSome?_nil]
      rfl
    | cons a queue =>
      have hfront := levelOrder_append hweight n [a] queue hn
      rw [List.singleton_append, List.flatMap_singleton] at hfront
      have hrest : total weight (queue ++ inside a) < total weight (a :: queue) := by
        have ha := hweight a
        rw [total_append, total_cons]
        omega
      rw [searchQueue, ih _ (by omega) (by omega), hfront, List.singleton_append, List.findSome?_cons]
      cases look a <;> rfl

/-- **What is found is the first on the first level that has anything to find.** -/
theorem searchQueue_eq_some {fuel : ℕ} {queue : List α} (hfuel : total weight queue ≤ fuel) {b : β} :
    searchQueue inside look fuel queue = some b ↔
      ∃ n, (level inside n queue).findSome? look = some b ∧
        ∀ m < n, (level inside m queue).findSome? look = none := by
  rw [searchQueue_eq hweight fuel fuel queue hfuel hfuel, levelOrder_eq, findSome?_flatMap,
    findSome?_range]
  constructor
  · rintro ⟨n, -, hn⟩
    exact ⟨n, hn⟩
  · rintro ⟨n, hn, hnone⟩
    refine ⟨n, ?_, hn, hnone⟩
    by_contra hge
    rw [level_eq_nil hweight (Nat.le_trans hfuel (Nat.le_of_not_lt hge)), List.findSome?_nil] at hn
    cases hn

/-- **Nothing is found when there is nothing to find on any level.** -/
theorem searchQueue_eq_none {fuel : ℕ} {queue : List α} (hfuel : total weight queue ≤ fuel) :
    searchQueue inside look fuel queue = none ↔ ∀ n, ∀ a ∈ level inside n queue, look a = none := by
  rw [searchQueue_eq hweight fuel fuel queue hfuel hfuel, levelOrder_eq, List.findSome?_eq_none_iff]
  constructor
  · intro h n a ha
    have hlt : n < fuel := by
      by_contra hge
      rw [level_eq_nil hweight (Nat.le_trans hfuel (Nat.le_of_not_lt hge))] at ha
      cases ha
    exact h a (List.mem_flatMap.mpr ⟨n, List.mem_range.mpr hlt, ha⟩)
  · intro h a ha
    obtain ⟨n, -, ha⟩ := List.mem_flatMap.mp ha
    exact h n a ha

end

end LevelOrder

end HarnessFramework
