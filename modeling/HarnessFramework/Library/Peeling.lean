import HarnessFramework.Library.Insertion
import Mathlib.Data.List.Nodup
import Mathlib.Order.WellFoundedSet

/-!
# Peeling a graph

A finite graph is peeled by taking away, again and again, a vertex that no edge from the rest leads to.
The vertices come off in an order that goes along the edges, and all of them come off exactly if the
graph has no cycle.

## Main definitions

* `remaining` — how many edges lead to a vertex from vertices that are not peeled off
* `Peeling` — what is known while a graph is peeled

## Main results

* `Peeling.start`, `Peeling.peel` — the first vertices, and taking one away
* `Peeling.idxOf_lt` — the order goes along the edges
* `Peeling.forall_mem_iff` — all vertices come off exactly if there is no cycle
-/

namespace HarnessFramework

open Relation

variable {α : Type} [DecidableEq α]

/-- How many edges lead to a vertex from vertices that are not peeled off. -/
def remaining (edges : List (α × α)) (order : List α) (v : α) : ℕ :=
  edges.countP fun e => e.2 = v ∧ e.1 ∉ order

/-- **What is known while a graph is peeled**: the vertices that were peeled off and those that are about
to be are the ones without remaining edges, and edges into the former come from earlier ones. -/
structure Peeling (vertices : List α) (edges : List (α × α)) (order queue : List α) : Prop where
  nodup : (order ++ queue).Nodup
  free : ∀ v, v ∈ order ++ queue ↔ v ∈ vertices ∧ remaining edges order v = 0
  before : ∀ earlier v later, order = earlier ++ v :: later → ∀ u, (u, v) ∈ edges → u ∈ earlier

variable {vertices : List α} {edges : List (α × α)} {order queue : List α}

/-- A vertex without remaining edges is reached from vertices that were peeled off only. -/
theorem remaining_eq_zero {v : α} : remaining edges order v = 0 ↔ ∀ u, (u, v) ∈ edges → u ∈ order := by
  rw [remaining, List.countP_eq_zero]
  constructor
  · intro h u hu
    by_contra hnot
    exact h (u, v) hu (decide_eq_true ⟨rfl, hnot⟩)
  · rintro h ⟨u, w⟩ he hcount
    obtain ⟨rfl, hnot⟩ := of_decide_eq_true hcount
    exact hnot (h u he)

/-- The edges out of a vertex no longer remain when it is peeled off. -/
theorem remaining_concat {v w : α} (hv : v ∉ order) :
    remaining edges order w =
      remaining edges (order ++ [v]) w + (edges.filter fun e => e.1 = v).countP fun e => e.2 = w := by
  rw [remaining, remaining, List.countP_filter]
  induction edges with
  | nil => rfl
  | cons e edges ih =>
    rw [List.countP_cons, List.countP_cons, List.countP_cons, ih]
    by_cases hsource : e.1 = v
    · simp only [hsource, hv, List.mem_append, List.mem_singleton, or_true, not_true, not_false_iff,
        and_true, and_false, decide_true, Bool.and_true, decide_false, Bool.false_eq_true, if_false]
      omega
    · simp only [hsource, List.mem_append, List.mem_singleton, or_false, decide_false, Bool.and_false,
        Bool.false_eq_true, if_false]
      omega

namespace Peeling

/-- Before anything is peeled off. -/
theorem start (hnodup : vertices.Nodup) :
    Peeling vertices edges [] (vertices.filter fun v => remaining edges [] v = 0) where
  nodup := hnodup.filter _
  free v := by rw [List.nil_append, List.mem_filter, decide_eq_true_eq]
  before earlier v later h := by simp at h

/-- **A vertex is peeled off**, and those whose last remaining edges came from it are added. -/
theorem peel {v : α} (h : Peeling vertices edges order (v :: queue)) {added : List α}
    (hnodup : added.Nodup)
    (hadded : ∀ w, w ∈ added ↔ (v, w) ∈ edges ∧ remaining edges (order ++ [v]) w = 0)
    (hedges : ∀ e ∈ edges, e.2 ∈ vertices) :
    Peeling vertices edges (order ++ [v]) (queue ++ added) := by
  have hv : v ∉ order := fun hmem =>
    (List.nodup_append.mp h.nodup).2.2 v hmem v List.mem_cons_self rfl
  have hsplit : order ++ [v] ++ (queue ++ added) = (order ++ v :: queue) ++ added := by simp
  have hfree := (h.free v).mp (List.mem_append_right _ List.mem_cons_self)
  have hold : ∀ w ∈ order ++ v :: queue, w ∉ added := by
    intro w hw hmem
    exact hv (remaining_eq_zero.mp ((h.free w).mp hw).2 v ((hadded w).mp hmem).1)
  refine ⟨?_, fun w => ?_, ?_⟩
  · rw [hsplit, List.nodup_append]
    exact ⟨h.nodup, hnodup, fun a ha b hb heq => hold a ha (heq ▸ hb)⟩
  · rw [hsplit, List.mem_append, h.free, hadded]
    constructor
    · rintro (⟨hw, hzero⟩ | ⟨hedge, hzero⟩)
      · refine ⟨hw, remaining_eq_zero.mpr fun u hu => ?_⟩
        exact List.mem_append_left _ (remaining_eq_zero.mp hzero u hu)
      · exact ⟨hedges _ hedge, hzero⟩
    · rintro ⟨hw, hzero⟩
      by_cases hedge : (v, w) ∈ edges
      · exact .inr ⟨hedge, hzero⟩
      · refine .inl ⟨hw, remaining_eq_zero.mpr fun u hu => ?_⟩
        rcases List.mem_append.mp (remaining_eq_zero.mp hzero u hu) with hmem | hmem
        · exact hmem
        · exact absurd (List.mem_singleton.mp hmem ▸ hu) hedge
  · intro earlier w later heq u hu
    rcases List.append_eq_append_iff.mp heq with ⟨rest, rfl, hrest⟩ | ⟨rest, hrest, hlater⟩
    · rcases rest with _ | ⟨r, rest⟩
      · obtain ⟨rfl, -⟩ := List.cons.inj hrest
        rw [List.append_nil]
        exact remaining_eq_zero.mp hfree.2 u hu
      · simp at hrest
    · rcases rest with _ | ⟨r, rest⟩
      · obtain ⟨rfl, -⟩ := List.cons.inj hlater
        rw [List.append_nil] at hrest
        exact hrest ▸ remaining_eq_zero.mp hfree.2 u hu
      · obtain ⟨rfl, -⟩ := List.cons.inj hlater
        exact h.before earlier _ rest hrest u hu

/-- No more vertices come off than there are. -/
theorem length_le (h : Peeling vertices edges order queue) :
    order.length + queue.length ≤ vertices.length := by
  rw [← List.length_append]
  exact (List.subperm_of_subset h.nodup fun v hv => ((h.free v).mp hv).1).length_le

/-- As many vertices come off as there are exactly if all of them do. -/
theorem length_eq_iff (h : Peeling vertices edges order queue) (hnodup : vertices.Nodup) :
    order.length = vertices.length ↔ ∀ v ∈ vertices, v ∈ order := by
  have hsub : order.Subperm vertices := by
    refine List.subperm_of_subset (List.Nodup.of_append_left h.nodup) fun v hv => ?_
    exact ((h.free v).mp (List.mem_append_left _ hv)).1
  constructor
  · intro heq v hv
    exact (hsub.perm_of_length_le heq.ge).mem_iff.mpr hv
  · intro hall
    exact hsub.length_le.antisymm (List.subperm_of_subset hnodup hall).length_le

/-- **The order goes along the edges.** -/
theorem idxOf_lt (h : Peeling vertices edges order queue) {u v : α} (hedge : (u, v) ∈ edges)
    (hv : v ∈ order) : order.idxOf u < order.idxOf v := by
  obtain ⟨earlier, later, rfl, hnot⟩ := List.eq_append_cons_of_mem hv
  have hu : u ∈ earlier := h.before earlier v later rfl u hedge
  rw [List.idxOf_append_of_mem hu, List.idxOf_append_of_notMem hnot, List.idxOf_cons_self, Nat.add_zero]
  exact List.idxOf_lt_length_of_mem hu

/-- **All vertices come off exactly if there is no cycle.** -/
theorem forall_mem_iff (h : Peeling vertices edges order [])
    (hedges : ∀ e ∈ edges, e.1 ∈ vertices ∧ e.2 ∈ vertices) :
    (∀ v ∈ vertices, v ∈ order) ↔ Acyclic fun u v => (u, v) ∈ edges := by
  constructor
  · intro hall x hcycle
    have hlt : ∀ {a b}, TransGen (fun u v => (u, v) ∈ edges) a b → order.idxOf a < order.idxOf b := by
      intro a b hpath
      refine TransGen.trans_induction_on hpath (fun hedge => ?_) fun _ _ => lt_trans
      exact h.idxOf_lt hedge (hall _ (hedges _ hedge).2)
    exact lt_irrefl _ (hlt hcycle)
  · intro hacyclic v hv
    by_contra hnot
    let left : Set α := {w | w ∈ vertices ∧ w ∉ order}
    have hfinite : left.Finite := (List.finite_toSet vertices).subset fun w hw => hw.1
    have : IsStrictOrder α (TransGen fun u v => (u, v) ∈ edges) :=
      { irrefl := hacyclic, trans := fun _ _ _ => TransGen.trans }
    -- A vertex that is left over and reached from no other one.
    obtain ⟨⟨w, hw, hwnot⟩, -, hleast⟩ :=
      (hfinite.wellFoundedOn (r := TransGen fun u v => (u, v) ∈ edges)).has_min Set.univ
        ⟨⟨v, hv, hnot⟩, trivial⟩
    have hremaining : ¬ ∀ u, (u, w) ∈ edges → u ∈ order := by
      intro hall
      have hfree := (h.free w).mpr ⟨hw, remaining_eq_zero.mpr hall⟩
      rw [List.append_nil] at hfree
      exact hwnot hfree
    obtain ⟨u, hu⟩ := not_forall.mp hremaining
    obtain ⟨hedge, hunot⟩ := Classical.not_imp.mp hu
    exact hleast ⟨u, (hedges _ hedge).1, hunot⟩ trivial (.single hedge)

end Peeling

end HarnessFramework
