import Mathlib.Data.List.Basic
import Mathlib.Logic.Relation
import Mathlib.Tactic.Common

/-!
# Graphs that run in supersteps

In every superstep a set of nodes runs, and what ran decides what runs next: the target of an edge
follows each run of its source, the target of a waiting edge follows once all its sources have run
since it was last followed, and a router picks among its destinations. A node that is scheduled more
than once in a superstep runs once.

Where edges and waiting edges come from dependencies between nodes, `Schedules.inOrder_iff` tells
when each node runs once and after all that it depends on: when the nodes have levels such that a
node is one level above the highest node it depends on, and the target of plain edges one level
above the source of each.

## Main definitions

* `StateGraph` — nodes, edges, waiting edges and routers
* `StateGraph.first`, `StateGraph.next` — what runs first, and after a superstep
* `StateGraph.superstep` — what runs in the `k`-th superstep, and what waiting edges have seen
* `StateGraph.InOrder` — a node runs once, after all that it depends on
* `StateGraph.Schedules` — the edges of the graph come from dependencies
* `StateGraph.Levelling` — levels as above

## Main results

* `StateGraph.Schedules.inOrder_iff` — nodes run once and in order exactly when there is a levelling
-/

namespace HarnessFramework

/-- An edge that waits for all of its sources. -/
structure WaitingEdge (α : Type) where
  sources : List α
  target : α
deriving DecidableEq

/-- A graph to run. -/
structure StateGraph (α : Type) where
  nodes : List α
  entry : α
  edges : List (α × α)
  waiting : List (WaitingEdge α)
  /-- The nodes whose successor a router picks, and the destinations. -/
  routers : List (α × List α)

/-- What runs in a superstep, and what each waiting edge has seen before it. -/
structure Superstep (α : Type) where
  running : List α
  seen : WaitingEdge α → List α

variable {α : Type} [DecidableEq α]

/-- What a waiting edge has seen after a superstep. One that had seen all of its sources starts
again. -/
def Superstep.seenAfter (s : Superstep α) (w : WaitingEdge α) : List α :=
  (if w.sources ⊆ s.seen w then [] else s.seen w) ++ s.running.filter (· ∈ w.sources)

namespace StateGraph

section

variable (g : StateGraph α) (route : ℕ → α → Option α)

/-- The node is scheduled by what ran in the superstep `s`. -/
def Scheduled (route : α → Option α) (s : Superstep α) (n : α) : Prop :=
  (∃ e ∈ g.edges, e.1 ∈ s.running ∧ e.2 = n) ∨
  (∃ w ∈ g.waiting, w.sources ⊆ s.seenAfter w ∧ w.target = n) ∨
  (∃ r ∈ g.routers, r.1 ∈ s.running ∧ route r.1 = some n ∧ n ∈ r.2)

instance (route : α → Option α) (s : Superstep α) : DecidablePred (g.Scheduled route s) := fun _ => by
  unfold Scheduled; infer_instance

/-- What runs first. -/
def first : Superstep α := ⟨g.nodes.filter (· = g.entry), fun _ => []⟩

/-- What runs after a superstep. -/
def next (route : α → Option α) (s : Superstep α) : Superstep α :=
  ⟨g.nodes.filter fun n => g.Scheduled route s n, s.seenAfter⟩

/-- The superstep `k`, where `route` is what the routers pick. -/
def superstep : ℕ → Superstep α
  | 0 => ⟨g.nodes.filter (· = g.entry), fun _ => []⟩
  | k + 1 =>
    let s := superstep k
    ⟨g.nodes.filter fun n => g.Scheduled (route k) s n, s.seenAfter⟩

theorem superstep_succ (k : ℕ) : g.superstep route (k + 1) = g.next (route k) (g.superstep route k) := rfl

/-- The node runs once, and what it depends on has run before. -/
def InOrder (dependsOn : α → α → Prop) (n : α) : Prop :=
  (∃! k, n ∈ (g.superstep route k).running) ∧
    ∀ p, dependsOn n p → ∀ k, n ∈ (g.superstep route k).running →
      ∃ j < k, p ∈ (g.superstep route j).running

end

/-! ## Dependencies -/

/-- The nodes that are reached from the entry. -/
def Reached (g : StateGraph α) (dependsOn : α → α → Prop) (n : α) : Prop :=
  Relation.ReflTransGen (fun p n => dependsOn n p) g.entry n

/-- The target of a waiting edge. -/
def Waits (g : StateGraph α) (n : α) : Prop := ∃ w ∈ g.waiting, w.target = n

/-- The edges of the graph come from dependencies: a waiting edge has all that its target depends on
as sources, and a target of plain edges has no waiting edge. -/
structure Schedules (g : StateGraph α) (dependsOn : α → α → Prop) : Prop where
  routers : g.routers = []
  entry_mem : g.entry ∈ g.nodes
  entry : ∀ p, ¬ dependsOn g.entry p
  edges : ∀ e ∈ g.edges, e.2 ∈ g.nodes ∧ dependsOn e.2 e.1 ∧ ¬ g.Waits e.2
  waiting : ∀ w ∈ g.waiting, w.target ∈ g.nodes ∧ w.sources ≠ [] ∧
    ∀ p, p ∈ w.sources ↔ dependsOn w.target p

/-- Levels of the nodes that are reached. -/
structure Levelling (g : StateGraph α) (dependsOn : α → α → Prop) (level : α → ℕ) : Prop where
  entry : level g.entry = 0
  reached : ∀ n, g.Reached dependsOn n → ∀ p, dependsOn n p → g.Reached dependsOn p
  lt : ∀ n, g.Reached dependsOn n → ∀ p, dependsOn n p → level p < level n
  waiting : ∀ n, g.Reached dependsOn n → g.Waits n → ∃ p, dependsOn n p ∧ level n = level p + 1
  edge : ∀ n, g.Reached dependsOn n → n ≠ g.entry → ¬ g.Waits n → ∃ p, (p, n) ∈ g.edges
  edges : ∀ n, g.Reached dependsOn n → ∀ p, (p, n) ∈ g.edges → level n = level p + 1

section

variable {g : StateGraph α} {route : ℕ → α → Option α} {dependsOn : α → α → Prop} {level : α → ℕ}

omit [DecidableEq α] in
theorem Reached.of_dependsOn {n p : α} (hp : g.Reached dependsOn p) (h : dependsOn n p) :
    g.Reached dependsOn n := hp.tail h

namespace Schedules

variable (h : g.Schedules dependsOn)
include h

/-- Without routers, edges and waiting edges schedule. -/
theorem mem_running_succ {k : ℕ} {n : α} : n ∈ (g.superstep route (k + 1)).running ↔
    (∃ p, (p, n) ∈ g.edges ∧ p ∈ (g.superstep route k).running) ∨
    (∃ w ∈ g.waiting, w.target = n ∧ w.sources ⊆ (g.superstep route (k + 1)).seen w) := by
  simp only [superstep, List.mem_filter, decide_eq_true_eq, Scheduled, h.routers, List.not_mem_nil,
    false_and, exists_false, or_false]
  constructor
  · rintro ⟨-, ⟨⟨p, m⟩, he, hp, rfl⟩ | ⟨w, hw, hseen, rfl⟩⟩
    · exact .inl ⟨p, he, hp⟩
    · exact .inr ⟨w, hw, rfl, hseen⟩
  · rintro (⟨p, he, hp⟩ | ⟨w, hw, rfl, hseen⟩)
    · exact ⟨(h.edges _ he).1, .inl ⟨_, he, hp, rfl⟩⟩
    · exact ⟨(h.waiting w hw).1, .inr ⟨w, hw, hseen, rfl⟩⟩

theorem mem_running_zero {n : α} : n ∈ (g.superstep route 0).running ↔ n = g.entry := by
  simp only [superstep, List.mem_filter, decide_eq_true_eq, and_iff_right_iff_imp]
  rintro rfl
  exact h.entry_mem

omit h in
theorem mem_seen_succ {k : ℕ} {w : WaitingEdge α} {p : α} : p ∈ (g.superstep route (k + 1)).seen w ↔
    (¬ w.sources ⊆ (g.superstep route k).seen w ∧ p ∈ (g.superstep route k).seen w) ∨
    (p ∈ (g.superstep route k).running ∧ p ∈ w.sources) := by
  simp only [superstep, Superstep.seenAfter, List.mem_append, List.mem_filter, decide_eq_true_eq]
  refine or_congr_left ?_
  split <;> simp_all

omit h in
/-- What a waiting edge has seen has run. -/
theorem seen_running {k : ℕ} {w : WaitingEdge α} {p : α} (hp : p ∈ (g.superstep route k).seen w) :
    p ∈ w.sources ∧ ∃ j < k, p ∈ (g.superstep route j).running := by
  induction k with
  | zero => simp [superstep] at hp
  | succ k ih =>
    rcases mem_seen_succ.mp hp with ⟨-, hp⟩ | ⟨hp, hsrc⟩
    · obtain ⟨hsrc, j, hj, hrun⟩ := ih hp
      exact ⟨hsrc, j, by omega, hrun⟩
    · exact ⟨hsrc, k, by omega, hp⟩

/-- What runs is reached from the entry. -/
theorem reached_of_running {k : ℕ} : ∀ {n : α}, n ∈ (g.superstep route k).running →
    g.Reached dependsOn n := by
  induction k using Nat.strongRecOn with
  | ind k ih =>
    intro n hn
    cases k with
    | zero => obtain rfl := h.mem_running_zero.mp hn; exact .refl
    | succ k =>
      rcases h.mem_running_succ.mp hn with ⟨p, he, hp⟩ | ⟨w, hw, rfl, hseen⟩
      · exact (ih k (by omega) hp).of_dependsOn (h.edges _ he).2.1
      · obtain ⟨-, hne, hsrc⟩ := h.waiting w hw
        obtain ⟨p, hp⟩ := List.exists_mem_of_ne_nil _ hne
        obtain ⟨-, j, hj, hrun⟩ := seen_running (hseen hp)
        exact (ih j hj hrun).of_dependsOn ((hsrc p).mp hp)

/-! ## From levels to runs -/

/-- What a waiting edge has seen before the superstep of its target's level: the sources of lower
levels. Afterwards it has seen nothing. -/
theorem mem_seen_iff (hl : g.Levelling dependsOn level) {k : ℕ}
    (hrun : ∀ j < k, ∀ n, n ∈ (g.superstep route j).running ↔ g.Reached dependsOn n ∧ level n = j)
    {w : WaitingEdge α} (hw : w ∈ g.waiting) (hreached : g.Reached dependsOn w.target) (p : α) :
    p ∈ (g.superstep route k).seen w ↔ k ≤ level w.target ∧ p ∈ w.sources ∧ level p < k := by
  obtain ⟨-, hne, hsrc⟩ := h.waiting w hw
  induction k generalizing p with
  | zero => simp [superstep]
  | succ k ih =>
    have hseen := ih fun j hj => hrun j (by omega)
    have hlt : ∀ q ∈ w.sources, level q < level w.target := fun q hq =>
      hl.lt _ hreached q ((hsrc q).mp hq)
    -- All sources have been seen before the superstep of the target's level, and not earlier.
    have hall : w.sources ⊆ (g.superstep route k).seen w ↔ k = level w.target := by
      constructor
      · intro hsub
        obtain ⟨q, hq, hlevel⟩ := hl.waiting _ hreached ⟨w, hw, rfl⟩
        have := (hseen q).mp (hsub ((hsrc q).mpr hq))
        omega
      · rintro hk q hq
        exact (hseen q).mpr ⟨by omega, hq, hk ▸ hlt q hq⟩
    rw [mem_seen_succ, hall, hseen, hrun k (by omega)]
    constructor
    · rintro (⟨hk, hle, hp, hlevel⟩ | ⟨⟨-, hlevel⟩, hp⟩)
      · exact ⟨by omega, hp, by omega⟩
      · have := hlt p hp
        exact ⟨by omega, hp, by omega⟩
    · rintro ⟨hle, hp, hlevel⟩
      by_cases hpk : level p = k
      · exact .inr ⟨⟨hl.reached _ hreached p ((hsrc p).mp hp), hpk⟩, hp⟩
      · exact .inl ⟨by omega, by omega, hp, by omega⟩

/-- **A node runs in the superstep of its level.** -/
theorem mem_running_iff (hl : g.Levelling dependsOn level) (k : ℕ) (n : α) :
    n ∈ (g.superstep route k).running ↔ g.Reached dependsOn n ∧ level n = k := by
  induction k using Nat.strongRecOn generalizing n with
  | ind k ih =>
    cases k with
    | zero =>
      rw [h.mem_running_zero]
      constructor
      · rintro rfl; exact ⟨.refl, hl.entry⟩
      · rintro ⟨hreached, hzero⟩
        rcases hreached.cases_tail with heq | ⟨p, -, hdep⟩
        · exact heq
        · have := hl.lt n hreached p hdep; omega
    | succ k =>
      rw [h.mem_running_succ]
      constructor
      · rintro (⟨p, he, hp⟩ | ⟨w, hw, rfl, hseen⟩)
        · obtain ⟨hreached, hlevel⟩ := (ih k (by omega) p).mp hp
          have hn := hreached.of_dependsOn (h.edges _ he).2.1
          exact ⟨hn, by rw [hl.edges n hn p he, hlevel]⟩
        · obtain ⟨-, hne, hsrc⟩ := h.waiting w hw
          obtain ⟨q, hq⟩ := List.exists_mem_of_ne_nil _ hne
          obtain ⟨-, j, hj, hrun⟩ := seen_running (hseen hq)
          have hn := (h.reached_of_running hrun).of_dependsOn ((hsrc q).mp hq)
          have hmem := h.mem_seen_iff hl ih hw hn
          obtain ⟨p, hp, hlevel⟩ := hl.waiting _ hn ⟨w, hw, rfl⟩
          have hp' := (hmem p).mp (hseen ((hsrc p).mpr hp))
          exact ⟨hn, by omega⟩
      · rintro ⟨hn, hlevel⟩
        by_cases hwaits : g.Waits n
        · obtain ⟨w, hw, rfl⟩ := hwaits
          refine .inr ⟨w, hw, rfl, fun p hp => (h.mem_seen_iff hl ih hw hn p).mpr ⟨by omega, hp, ?_⟩⟩
          have := hl.lt _ hn p (((h.waiting w hw).2.2 p).mp hp)
          omega
        · have hne : n ≠ g.entry := by rintro rfl; have := hl.entry; omega
          obtain ⟨p, he⟩ := hl.edge n hn hne hwaits
          have := hl.edges n hn p he
          exact .inl ⟨p, he, (ih k (by omega) p).mpr
            ⟨hl.reached n hn p (h.edges _ he).2.1, by omega⟩⟩

/-! ## From runs to levels -/

/-- The sources of a waiting edge whose target runs: one ran in the superstep before. -/
theorem exists_source_running {k : ℕ} {w : WaitingEdge α} (hw : w ∈ g.waiting)
    (hseen : w.sources ⊆ (g.superstep route (k + 1)).seen w) :
    ∃ p ∈ w.sources, p ∈ (g.superstep route k).running := by
  by_contra hno
  have hold : ∀ p ∈ w.sources, ¬ w.sources ⊆ (g.superstep route k).seen w ∧
      p ∈ (g.superstep route k).seen w := by
    intro p hp
    rcases mem_seen_succ.mp (hseen hp) with hold | ⟨hrun, -⟩
    · exact hold
    · exact absurd ⟨p, hp, hrun⟩ hno
  obtain ⟨q, hq⟩ := List.exists_mem_of_ne_nil _ (h.waiting w hw).2.1
  exact (hold q hq).1 fun p hp => (hold p hp).2

/-- **When nodes run once and in order, the supersteps are levels.** -/
theorem levelling_of_inOrder
    (hrun : ∀ n, g.Reached dependsOn n → g.InOrder route dependsOn n)
    (hlevel : ∀ n, g.Reached dependsOn n → n ∈ (g.superstep route (level n)).running) :
    g.Levelling dependsOn level := by
  have hunique : ∀ n k, n ∈ (g.superstep route k).running → level n = k := fun n k hk =>
    (hrun n (h.reached_of_running hk)).1.unique (hlevel n (h.reached_of_running hk)) hk
  have hbefore : ∀ n, g.Reached dependsOn n → ∀ p, dependsOn n p →
      g.Reached dependsOn p ∧ level p < level n := by
    intro n hn p hp
    obtain ⟨j, hj, hrunp⟩ := (hrun n hn).2 p hp _ (hlevel n hn)
    exact ⟨h.reached_of_running hrunp, by rw [hunique p j hrunp]; exact hj⟩
  have hsucc : ∀ n, g.Reached dependsOn n → n ≠ g.entry → ∃ k, level n = k + 1 := by
    intro n hn hne
    rcases hn.cases_tail with heq | ⟨p, -, hdep⟩
    · exact absurd heq hne
    · have := (hbefore n hn p hdep).2
      exact ⟨level n - 1, by omega⟩
  refine ⟨hunique _ 0 (h.mem_running_zero.mpr rfl), fun n hn p hp => (hbefore n hn p hp).1,
    fun n hn p hp => (hbefore n hn p hp).2, ?_, ?_, ?_⟩
  · rintro n hn hwaits
    have hne : n ≠ g.entry := by
      rintro rfl
      obtain ⟨w, hw, htarget⟩ := hwaits
      obtain ⟨p, hp⟩ := List.exists_mem_of_ne_nil _ (h.waiting w hw).2.1
      exact h.entry p (htarget ▸ ((h.waiting w hw).2.2 p).mp hp)
    obtain ⟨k, hk⟩ := hsucc n hn hne
    rcases h.mem_running_succ.mp (hk ▸ hlevel n hn) with ⟨p, he, -⟩ | ⟨w, hw, rfl, hseen⟩
    · exact absurd hwaits (h.edges _ he).2.2
    · obtain ⟨p, hp, hrunp⟩ := h.exists_source_running hw hseen
      exact ⟨p, ((h.waiting w hw).2.2 p).mp hp, by rw [hk, hunique p k hrunp]⟩
  · intro n hn hne hwaits
    obtain ⟨k, hk⟩ := hsucc n hn hne
    rcases h.mem_running_succ.mp (hk ▸ hlevel n hn) with ⟨p, he, -⟩ | ⟨w, hw, htarget, -⟩
    · exact ⟨p, he⟩
    · exact absurd ⟨w, hw, htarget⟩ hwaits
  · intro n hn p he
    have hp := (hbefore n hn p (h.edges _ he).2.1).1
    exact hunique n _ (h.mem_running_succ.mpr (.inl ⟨p, he, hlevel p hp⟩))

/-- **Nodes run once and in order exactly when there is a levelling.** -/
theorem inOrder_iff : (∀ n, g.Reached dependsOn n → g.InOrder route dependsOn n) ↔
    ∃ level, g.Levelling dependsOn level := by
  constructor
  · intro hrun
    classical
    have hex : ∀ n, ∃ k, g.Reached dependsOn n → n ∈ (g.superstep route k).running := by
      intro n
      by_cases hn : g.Reached dependsOn n
      · obtain ⟨k, hk, -⟩ := (hrun n hn).1
        exact ⟨k, fun _ => hk⟩
      · exact ⟨0, fun hn' => absurd hn' hn⟩
    choose level hlevel using hex
    exact ⟨level, h.levelling_of_inOrder hrun hlevel⟩
  · rintro ⟨level, hl⟩ n hn
    have hmem : ∀ k n, n ∈ (g.superstep route k).running ↔ g.Reached dependsOn n ∧ level n = k :=
      h.mem_running_iff hl
    refine ⟨⟨level n, (hmem _ n).mpr ⟨hn, rfl⟩, fun k hk => ((hmem k n).mp hk).2.symm⟩, ?_⟩
    intro p hp k hk
    obtain ⟨-, rfl⟩ := (hmem k n).mp hk
    exact ⟨level p, hl.lt n hn p hp, (hmem _ p).mpr ⟨hl.reached n hn p hp, rfl⟩⟩

end Schedules

end

end StateGraph

end HarnessFramework
