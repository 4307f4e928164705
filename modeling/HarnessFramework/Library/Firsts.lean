import Mathlib.Data.List.Nodup
import Mathlib.Data.Nat.Find

/-!
# The first of each class

A loop that walks through a list with the keys it has seen keeps the items whose keys are new. What it
keeps are the first items of the classes of items with the same key.

## Main definitions

* `firstsBy` — the loop
* `Firsts` — a list holds exactly the first item of each class of another one, in order

## Main results

* `firsts_firstsBy` — what the loop keeps
* `Firsts.exists_mem`, `Firsts.pairwise` — no class is lost, and none is kept twice
* `firstsBy_firstsBy` — walking through what is kept keeps it all
-/

namespace HarnessFramework

variable {α κ : Type}

/-- The items whose keys were not seen before. -/
def firstsBy [DecidableEq κ] (key : α → κ) : List κ → List α → List α
  | _, [] => []
  | seen, item :: items =>
    if key item ∈ seen then firstsBy key seen items
    else item :: firstsBy key (key item :: seen) items

/-- Nothing before the item at the index is related to it. -/
def IsFirst (r : α → α → Prop) (items : List α) (i : ℕ) : Prop :=
  ∃ item, items[i]? = some item ∧
    ∀ (j : ℕ) other, j < i → items[j]? = some other → ¬ r other item

/-- **The items at exactly those indices where an item is the first of its class**, in order. -/
def Firsts (r : α → α → Prop) (items kept : List α) : Prop :=
  ∃ indices : List ℕ, indices.Pairwise (· < ·) ∧ (∀ i, i ∈ indices ↔ IsFirst r items i) ∧
    kept.map some = indices.map (items[·]?)

/-! ## What the first items are -/

namespace Firsts

variable {r : α → α → Prop} {items kept : List α}

theorem mem_of_isFirst (h : Firsts r items kept) {i : ℕ} {item : α} (hi : IsFirst r items i)
    (hat : items[i]? = some item) : item ∈ kept := by
  obtain ⟨indices, -, hindices, hkept⟩ := h
  have hsome : some item ∈ kept.map some := by
    rw [hkept, ← hat]
    exact List.mem_map_of_mem (f := (items[·]?)) ((hindices i).mpr hi)
  obtain ⟨other, hother, heq⟩ := List.mem_map.mp hsome
  exact Option.some_inj.mp heq ▸ hother

/-- No class is lost. -/
theorem exists_mem (h : Firsts r items kept) (hrefl : ∀ a, r a a)
    (htrans : ∀ {a b c}, r a b → r b c → r a c) {item : α} (hitem : item ∈ items) :
    ∃ first ∈ kept, r first item := by
  classical
  obtain ⟨i, hi⟩ := List.mem_iff_getElem?.mp hitem
  have hex : ∃ j other, items[j]? = some other ∧ r other item := ⟨i, item, hi, hrefl item⟩
  obtain ⟨first, hat, hfirst⟩ := Nat.find_spec hex
  refine ⟨first, h.mem_of_isFirst ⟨first, hat, fun j other hj hother hr => ?_⟩ hat, hfirst⟩
  exact Nat.find_min hex hj ⟨other, hother, htrans hr hfirst⟩

/-- No class is kept twice. -/
theorem pairwise (h : Firsts r items kept) : kept.Pairwise fun a b => ¬ r a b := by
  obtain ⟨indices, hsorted, hindices, hkept⟩ := h
  have hsome : (kept.map some).Pairwise fun a b => ∀ x ∈ a, ∀ y ∈ b, ¬ r x y := by
    rw [hkept, List.pairwise_map]
    refine hsorted.imp_of_mem fun {i j} _ hj hij x hx y hy => ?_
    obtain ⟨item, hat, hnone⟩ := (hindices j).mp hj
    obtain rfl := Option.some_inj.mp (hat.symm.trans hy)
    exact hnone i x hij hx
  rw [List.pairwise_map] at hsome
  exact hsome.imp fun hab => hab _ rfl _ rfl

end Firsts

/-! ## The loop -/

section

variable [DecidableEq κ] (key : α → κ)

theorem firstsBy_sublist (seen : List κ) (items : List α) : (firstsBy key seen items).Sublist items := by
  induction items generalizing seen with
  | nil => exact List.Sublist.refl _
  | cons item items ih =>
    rw [firstsBy]
    split
    · exact (ih seen).cons item
    · exact (ih (key item :: seen)).cons_cons item

/-- The loop keeps the items whose keys are neither seen before nor earlier in the list. -/
theorem exists_indices_firstsBy (seen : List κ) (items : List α) :
    ∃ indices : List ℕ, indices.Pairwise (· < ·) ∧
      (∀ i, i ∈ indices ↔ IsFirst (fun a b => key a = key b) items i ∧
        ∀ item ∈ items[i]?, key item ∉ seen) ∧
      (firstsBy key seen items).map some = indices.map (items[·]?) := by
  induction items generalizing seen with
  | nil => exact ⟨[], .nil, fun i => by simp [IsFirst], rfl⟩
  | cons item items ih =>
    have hzero : IsFirst (fun a b => key a = key b) (item :: items) 0 :=
      ⟨item, rfl, fun j _ hj => absurd hj (Nat.not_lt_zero j)⟩
    have hsucc : ∀ i, IsFirst (fun a b => key a = key b) (item :: items) (i + 1) ↔
        IsFirst (fun a b => key a = key b) items i ∧ ∀ later ∈ items[i]?, key later ≠ key item := by
      intro i
      constructor
      · rintro ⟨later, hlater, hnone⟩
        refine ⟨⟨later, hlater, fun j other hj h => hnone (j + 1) other (by omega) h⟩, ?_⟩
        rintro other hother heq
        obtain rfl := Option.some_inj.mp (hlater.symm.trans hother)
        exact hnone 0 item (by omega) rfl heq.symm
      · rintro ⟨⟨later, hlater, hnone⟩, hhead⟩
        refine ⟨later, hlater, ?_⟩
        rintro (_ | j) other hj h
        · obtain rfl := Option.some_inj.mp h
          exact fun heq => hhead later hlater heq.symm
        · exact hnone j other (by omega) h
    have hmem : ∀ {indices : List ℕ} {i}, i + 1 ∈ indices.map (· + 1) ↔ i ∈ indices := by
      intro indices i
      rw [List.mem_map]
      constructor
      · rintro ⟨j, hj, heq⟩
        rwa [← Nat.succ.inj heq]
      · exact fun hi => ⟨i, hi, rfl⟩
    rw [firstsBy]
    split
    · next hseen =>
      obtain ⟨indices, hsorted, hindices, hkept⟩ := ih seen
      refine ⟨indices.map (· + 1), hsorted.map _ fun _ _ h => Nat.succ_lt_succ h, fun i => ?_, ?_⟩
      · match i with
        | 0 => simp [hseen]
        | i + 1 =>
          rw [hmem, hindices, hsucc, and_assoc]
          refine and_congr_right fun _ => ⟨fun hnew => ⟨?_, hnew⟩, And.right⟩
          exact fun later hlater heq => hnew later hlater (heq ▸ hseen)
      · rw [hkept, List.map_map]
        rfl
    · next hseen =>
      obtain ⟨indices, hsorted, hindices, hkept⟩ := ih (key item :: seen)
      refine ⟨0 :: indices.map (· + 1), ?_, fun i => ?_, ?_⟩
      · refine List.pairwise_cons.mpr ⟨?_, hsorted.map _ fun _ _ h => Nat.succ_lt_succ h⟩
        intro i hi
        obtain ⟨j, -, rfl⟩ := List.mem_map.mp hi
        exact Nat.succ_pos j
      · match i with
        | 0 =>
          refine iff_of_true List.mem_cons_self ⟨hzero, ?_⟩
          rintro later hlater
          obtain rfl := Option.some_inj.mp hlater
          exact hseen
        | i + 1 =>
          rw [List.mem_cons, or_iff_right (Nat.succ_ne_zero i), hmem, hindices, hsucc, and_assoc]
          refine and_congr_right fun _ => ?_
          simp only [List.mem_cons, not_or]
          exact ⟨fun h => ⟨fun later hl => (h later hl).1, fun later hl => (h later hl).2⟩,
            fun h later hl => ⟨h.1 later hl, h.2 later hl⟩⟩
      · rw [List.map_cons, hkept, List.map_cons, List.map_map]
        rfl

/-- **The loop keeps the first item of each class.** -/
theorem firsts_firstsBy (items : List α) :
    Firsts (fun a b => key a = key b) items (firstsBy key [] items) := by
  obtain ⟨indices, hsorted, hindices, hkept⟩ := exists_indices_firstsBy key [] items
  refine ⟨indices, hsorted, fun i => (hindices i).trans (and_iff_left ?_), hkept⟩
  exact fun item _ => List.not_mem_nil

/-- The loop keeps items that are all of different classes. -/
theorem firstsBy_eq_self {seen : List κ} {items : List α} (hnodup : (items.map key).Nodup)
    (hnew : ∀ item ∈ items, key item ∉ seen) : firstsBy key seen items = items := by
  induction items generalizing seen with
  | nil => rfl
  | cons item items ih =>
    rw [List.map_cons, List.nodup_cons] at hnodup
    rw [firstsBy, if_neg (hnew item List.mem_cons_self), ih hnodup.2 fun later hlater => ?_]
    rw [List.mem_cons, not_or]
    refine ⟨fun heq => hnodup.1 ?_, hnew later (List.mem_cons_of_mem _ hlater)⟩
    exact heq ▸ List.mem_map_of_mem hlater

/-- Walking through what is kept keeps it all. -/
theorem firstsBy_firstsBy (items : List α) :
    firstsBy key [] (firstsBy key [] items) = firstsBy key [] items := by
  refine firstsBy_eq_self key ?_ fun item _ => List.not_mem_nil
  exact List.pairwise_map.mpr (firsts_firstsBy key items).pairwise

end

end HarnessFramework
