import HarnessFramework.Contracts.Canonical
import HarnessFramework.Library.Checks
import HarnessFramework.Library.Supersteps

/-!
# Lowering a plan to a graph

`lowerHarnessPlan` of `packages/runtime-langgraph/src/index.ts`: which edges, waiting edges and routers
the graph of a plan gets, and in which order its nodes run. A join of several edges waits for all of
its sources; every other node follows each of its sources, and nothing plain follows an output node.

What nodes compute is left out: the order of a run without control edges does not depend on it.

## Main definitions

* `WorkflowPlan` — what lowering reads of a plan
* `lowerHarnessPlan` — the graph of a plan
* `RunsInOrder` — every node runs once, after all that it depends on
* `Levels`, `Levelled` — the plans whose graphs do so

## Main results

* `schedules_of_lower` — the graph of a plan schedules its dependencies
* `lowering_inOrder_iff` — the graph runs in order exactly when the plan is levelled
-/

namespace HarnessFramework

namespace RuntimeLanggraph

open Checks

/-! ## Plans -/

/-- The kind of a `graphNodeSchema`. -/
inductive NodeKind
  | input
  | output
  | agent
  | tool
  | transform
  | condition
  | evaluate
  | join
  | aggregator
deriving DecidableEq, Repr

/-- The kind of a `graphEdgeSchema`. -/
inductive EdgeKind
  | data
  | dependency
  | control
deriving DecidableEq, Repr

/-- `graphNodeSchema`, as far as lowering reads it. -/
structure WorkflowNode where
  id : String
  kind : NodeKind
  config : List (String × Json)
deriving DecidableEq

/-- `graphEdgeSchema`, as far as lowering reads it. -/
structure WorkflowEdge where
  source : String
  target : String
  kind : EdgeKind
deriving DecidableEq

/-- What lowering reads of a plan. -/
structure WorkflowPlan where
  adapterVersion : String
  nodes : List WorkflowNode
  edges : List WorkflowEdge
  nodeOrder : List String
deriving DecidableEq

/-- What lowering throws. -/
inductive LoweringFailure
  | code (code : String)
  /-- LangGraph refuses a node or an edge. -/
  | langgraph
deriving DecidableEq, Repr

/-! ## Lowering -/

/-- `joinMode`. -/
def joinMode (node : WorkflowNode) : String :=
  let value (key : String) : Option Json := (lastMember key node.config).filter (· ≠ .null)
  match (value "mode").or (value "operation") with
  | some value => String.ofList value.toJsString
  | none => "all"

namespace WorkflowPlan

variable (plan : WorkflowPlan)

/-- The ids of the nodes. -/
def ids : List String := plan.nodes.map (·.id)

/-- `allSettledJoins`. -/
def allSettledJoins : List String :=
  (plan.nodes.filter fun node => node.kind = .join ∧ joinMode node = "allSettled").map (·.id)

/-- `settledSourceIds`. -/
def settledSourceIds : List String :=
  (plan.edges.filter fun edge => edge.target ∈ plan.allSettledJoins ∧ edge.kind ≠ .control).map
    (·.source)

/-- The source has an edge to an allSettled join and one to another node. -/
def HasMixedFanout (sourceId : String) : Prop :=
  ∃ edge ∈ plan.edges, edge.source = sourceId ∧ edge.target ∉ plan.allSettledJoins

instance : DecidablePred plan.HasMixedFanout := fun sourceId => by
  unfold HasMixedFanout; infer_instance

/-- `starts`. -/
def starts : List String :=
  plan.nodeOrder.filter fun id => id ∈ plan.ids ∧ ∀ edge ∈ plan.edges, edge.target ≠ id

/-- The sources of the edges into a node that are no control edges. -/
def sources (id : String) : List String :=
  (plan.edges.filter fun edge => edge.target = id ∧ edge.kind ≠ .control).map (·.source)

/-- The joins of several edges. -/
def barriers : List WorkflowNode :=
  plan.nodes.filter fun node => node.kind = .join ∧ 1 < (plan.sources node.id).length

/-- `barrierTargets`. -/
def barrierTargets : List String := plan.barriers.map (·.id)

/-- The edges out of a node. -/
def outgoing (node : WorkflowNode) : List WorkflowEdge :=
  plan.edges.filter fun edge => edge.source = node.id

/-- The control edges out of a node. -/
def controls (node : WorkflowNode) : List WorkflowEdge :=
  (plan.outgoing node).filter fun edge => edge.kind = .control

/-- The edges of a node that is lowered to plain edges: no router, and no end of the graph. -/
def plainOutgoing (node : WorkflowNode) : List WorkflowEdge :=
  if plan.controls node ≠ [] ∨ node.kind = .output then [] else plan.outgoing node

/-- The plain edges of the graph. -/
def plainEdges : List (String × String) :=
  plan.nodes.flatMap fun node => ((plan.plainOutgoing node).filter fun edge =>
    ¬ (edge.target ∈ plan.barrierTargets ∧ edge.kind ≠ .control)).map fun edge => (node.id, edge.target)

/-- The routers of the graph. -/
def routers : List (String × List String) :=
  (plan.nodes.filter fun node => plan.controls node ≠ []).map fun node =>
    (node.id, (plan.controls node).map (·.target))

end WorkflowPlan

/-- `lowerHarnessPlan`. LangGraph takes each node once, and no edge without its nodes. -/
def lowerHarnessPlan (plan : WorkflowPlan) : Except LoweringFailure (StateGraph String) := do
  ensure (plan.adapterVersion = "harness-langgraph-v1")
    (.code "langgraph.adapter_version_unsupported")
  match plan.settledSourceIds.find? plan.HasMixedFanout with
  | some sourceId => throw (.code ("langgraph.all_settled_mixed_fanout_unsupported:" ++ sourceId))
  | none =>
    ensure plan.ids.Nodup .langgraph
    match plan.starts with
    | [entry] =>
      ensure (∀ join ∈ plan.barriers, plan.sources join.id ⊆ plan.ids) .langgraph
      match (plan.nodes.flatMap plan.plainOutgoing).find? (·.target ∉ plan.ids) with
      | some edge => throw (.code ("langgraph.edge_target_missing:" ++ edge.target))
      | none =>
        ensure (∀ router ∈ plan.routers, router.2 ⊆ plan.ids) .langgraph
        return {
          nodes := plan.ids
          entry
          edges := plan.plainEdges
          waiting := plan.barriers.map fun join => ⟨plan.sources join.id, join.id⟩
          routers := plan.routers }
    | _ => throw (.code "langgraph.single_entry_required")

/-! ## The order of a run -/

namespace WorkflowPlan

variable (plan : WorkflowPlan)

/-- The node `p` is a predecessor of the node `n`. -/
def DependsOn (n p : String) : Prop :=
  p ∈ plan.ids ∧ n ∈ plan.ids ∧ ∃ edge ∈ plan.edges, edge.source = p ∧ edge.target = n

/-- The node is reached from an entry. -/
def Reached (n : String) : Prop :=
  ∃ entry ∈ plan.starts, Relation.ReflTransGen (fun p n => plan.DependsOn n p) entry n

/-- No node precedes itself. -/
def Acyclic : Prop := ∀ n, ¬ Relation.TransGen (fun p n => plan.DependsOn n p) n n

/-- One node has no edge into it. -/
def SingleEntry : Prop := ∃! n, n ∈ plan.ids ∧ ∀ edge ∈ plan.edges, edge.target ≠ n

/-- The plan has no control edges. -/
def NoControl : Prop := ∀ edge ∈ plan.edges, edge.kind ≠ .control

/-- A node that is no output. -/
def Continues (p : String) : Prop := ∃ node ∈ plan.nodes, node.id = p ∧ node.kind ≠ .output

/-- Levels of the nodes that are reached from the entry: each is above all that it depends on, a join
of several edges by one above the highest of them, and any other node by one above each of them that
is no output, of which there is one. -/
structure Levels (level : String → ℕ) : Prop where
  entry : ∀ n ∈ plan.starts, level n = 0
  reached : ∀ n, plan.Reached n → ∀ p, plan.DependsOn n p → plan.Reached p
  lt : ∀ n, plan.Reached n → ∀ p, plan.DependsOn n p → level p < level n
  join : ∀ n, plan.Reached n → n ∈ plan.barrierTargets → ∃ p, plan.DependsOn n p ∧ level n = level p + 1
  other : ∀ n, plan.Reached n → n ∉ plan.starts → n ∉ plan.barrierTargets →
    ∃ p, plan.DependsOn n p ∧ plan.Continues p
  others : ∀ n, plan.Reached n → n ∉ plan.barrierTargets →
    ∀ p, plan.DependsOn n p → plan.Continues p → level n = level p + 1

/-- The nodes have levels. -/
def Levelled : Prop := ∃ level, plan.Levels level

end WorkflowPlan

/-- Every node that is reached from the entry runs once, after all that it depends on. -/
def RunsInOrder (plan : WorkflowPlan) (g : StateGraph String) (route : ℕ → String → Option String) :
    Prop :=
  ∀ n, plan.Reached n → g.InOrder route plan.DependsOn n

/-! ## What lowering keeps -/

section

variable {plan : WorkflowPlan} {g : StateGraph String}

/-- **What the graph of a plan is made of.** -/
theorem lowerHarnessPlan_ok (h : lowerHarnessPlan plan = .ok g) :
    plan.ids.Nodup ∧ plan.starts = [g.entry] ∧
      (∀ join ∈ plan.barriers, plan.sources join.id ⊆ plan.ids) ∧
      (∀ node ∈ plan.nodes, ∀ edge ∈ plan.plainOutgoing node, edge.target ∈ plan.ids) ∧
      g.nodes = plan.ids ∧ g.edges = plan.plainEdges ∧
      g.waiting = plan.barriers.map (fun join => ⟨plan.sources join.id, join.id⟩) ∧
      g.routers = plan.routers := by
  rw [lowerHarnessPlan, ensure_bind_eq_ok] at h
  obtain ⟨-, h⟩ := h
  split at h
  · cases h
  rw [ensure_bind_eq_ok] at h
  obtain ⟨hnodup, h⟩ := h
  split at h
  case h_2 => cases h
  case h_1 entry hstarts =>
    rw [ensure_bind_eq_ok] at h
    obtain ⟨hsources, h⟩ := h
    split at h
    · cases h
    case h_2 hmissing =>
      rw [ensure_bind_eq_ok, pure_eq_ok] at h
      obtain ⟨-, rfl⟩ := h
      refine ⟨hnodup, hstarts, hsources, ?_, rfl, rfl, rfl, rfl⟩
      intro node hnode edge hedge
      have := List.find?_eq_none.mp hmissing edge (List.mem_flatMap.mpr ⟨node, hnode, hedge⟩)
      simpa using this

theorem mem_sources {id p : String} (hno : plan.NoControl) :
    p ∈ plan.sources id ↔ ∃ edge ∈ plan.edges, edge.source = p ∧ edge.target = id := by
  simp only [WorkflowPlan.sources, List.mem_map, List.mem_filter, decide_eq_true_eq]
  constructor
  · rintro ⟨edge, ⟨hmem, htarget, -⟩, hsource⟩; exact ⟨edge, hmem, hsource, htarget⟩
  · rintro ⟨edge, hmem, hsource, htarget⟩; exact ⟨edge, ⟨hmem, htarget, hno edge hmem⟩, hsource⟩

theorem controls_eq_nil (hno : plan.NoControl) (node : WorkflowNode) : plan.controls node = [] := by
  refine List.filter_eq_nil_iff.mpr fun edge hedge => ?_
  simpa using hno edge (List.mem_filter.mp hedge).1

/-- The plain edges: those that no join of several edges waits for, from nodes that continue. -/
theorem mem_plainEdges (hno : plan.NoControl) {p n : String} : (p, n) ∈ plan.plainEdges ↔
    plan.Continues p ∧ (∃ edge ∈ plan.edges, edge.source = p ∧ edge.target = n) ∧
      n ∉ plan.barrierTargets := by
  have hplain : ∀ node edge, edge ∈ plan.plainOutgoing node ↔
      node.kind ≠ .output ∧ edge ∈ plan.edges ∧ edge.source = node.id := by
    intro node edge
    by_cases hkind : node.kind = .output <;>
      simp [WorkflowPlan.plainOutgoing, controls_eq_nil hno, hkind, WorkflowPlan.outgoing]
  simp only [WorkflowPlan.plainEdges, List.mem_flatMap, List.mem_map, List.mem_filter, hplain,
    decide_eq_true_eq, Prod.mk.injEq]
  constructor
  · rintro ⟨node, hnode, edge, ⟨⟨hkind, hmem, hsource⟩, hbarrier⟩, rfl, rfl⟩
    exact ⟨⟨node, hnode, rfl, hkind⟩, ⟨edge, hmem, hsource, rfl⟩,
      fun hin => hbarrier ⟨hin, hno edge hmem⟩⟩
  · rintro ⟨⟨node, hnode, rfl, hkind⟩, ⟨edge, hmem, hsource, rfl⟩, hbarrier⟩
    exact ⟨node, hnode, edge, ⟨⟨hkind, hmem, hsource⟩, fun hin => hbarrier hin.1⟩, rfl, rfl⟩

theorem waits_iff (h : lowerHarnessPlan plan = .ok g) {n : String} :
    g.Waits n ↔ n ∈ plan.barrierTargets := by
  obtain ⟨-, -, -, -, -, -, hwaiting, -⟩ := lowerHarnessPlan_ok h
  simp [StateGraph.Waits, hwaiting, WorkflowPlan.barrierTargets]

/-- A node of a plan without control edges depends on the source of each of its edges. -/
theorem mem_edges_iff (h : lowerHarnessPlan plan = .ok g) (hno : plan.NoControl) {p n : String} :
    (p, n) ∈ g.edges ↔ plan.Continues p ∧ plan.DependsOn n p ∧ n ∉ plan.barrierTargets := by
  obtain ⟨-, -, -, htargets, -, hedges, -, -⟩ := lowerHarnessPlan_ok h
  rw [hedges, mem_plainEdges hno]
  constructor
  · rintro ⟨⟨node, hnode, rfl, hkind⟩, ⟨edge, hmem, hsource, rfl⟩, hbarrier⟩
    have hplain : edge ∈ plan.plainOutgoing node := by
      simp [WorkflowPlan.plainOutgoing, controls_eq_nil hno, hkind, WorkflowPlan.outgoing, hmem, hsource]
    exact ⟨⟨node, hnode, rfl, hkind⟩, ⟨List.mem_map_of_mem hnode, htargets node hnode edge hplain,
      edge, hmem, hsource, rfl⟩, hbarrier⟩
  · rintro ⟨hcontinues, ⟨-, -, hedge⟩, hbarrier⟩
    exact ⟨hcontinues, hedge, hbarrier⟩

/-- **The graph of a plan schedules its dependencies.** -/
theorem schedules_of_lower (h : lowerHarnessPlan plan = .ok g) (hno : plan.NoControl) :
    g.Schedules plan.DependsOn := by
  obtain ⟨-, hstarts, hsources, -, hnodes, -, hwaiting, hrouters⟩ := lowerHarnessPlan_ok h
  have hentry : g.entry ∈ plan.starts := by simp [hstarts]
  obtain ⟨-, hentry⟩ := List.mem_filter.mp hentry
  simp only [decide_eq_true_eq] at hentry
  refine ⟨?_, hnodes ▸ hentry.1, ?_, ?_, ?_⟩
  · rw [hrouters, WorkflowPlan.routers, List.filter_eq_nil_iff.mpr, List.map_nil]
    intro node _
    simp [controls_eq_nil hno]
  · rintro p ⟨-, -, edge, hmem, -, htarget⟩
    exact hentry.2 edge hmem htarget
  · rintro ⟨p, n⟩ he
    obtain ⟨-, hdep, hbarrier⟩ := (mem_edges_iff h hno).mp he
    exact ⟨hnodes ▸ hdep.2.1, hdep, fun hwaits => hbarrier ((waits_iff h).mp hwaits)⟩
  · intro w hw
    rw [hwaiting, List.mem_map] at hw
    obtain ⟨join, hjoin, rfl⟩ := hw
    obtain ⟨hnode, hkind⟩ := List.mem_filter.mp hjoin
    simp only [decide_eq_true_eq] at hkind
    have hid : join.id ∈ plan.ids := List.mem_map_of_mem hnode
    have hne : plan.sources join.id ≠ [] := by
      intro hnil
      simp [hnil] at hkind
    refine ⟨hnodes ▸ hid, hne, fun p => ?_⟩
    constructor
    · intro hp
      exact ⟨hsources join hjoin hp, hid, (mem_sources hno).mp hp⟩
    · rintro ⟨-, -, hedge⟩
      exact (mem_sources hno).mpr hedge

theorem reached_iff (h : lowerHarnessPlan plan = .ok g) {n : String} :
    plan.Reached n ↔ g.Reached plan.DependsOn n := by
  obtain ⟨-, hstarts, -⟩ := lowerHarnessPlan_ok h
  simp [WorkflowPlan.Reached, StateGraph.Reached, hstarts]

/-- The levels of a plan are those of its graph. -/
theorem levels_iff (h : lowerHarnessPlan plan = .ok g) (hno : plan.NoControl) {level : String → ℕ} :
    plan.Levels level ↔ g.Levelling plan.DependsOn level := by
  have hstarts : ∀ n, n ∈ plan.starts ↔ n = g.entry := by
    simp [(lowerHarnessPlan_ok h).2.1]
  constructor
  · intro hl
    refine ⟨hl.entry _ ((hstarts _).mpr rfl), ?_, ?_, ?_, ?_, ?_⟩
    · intro n hn p hp
      exact (reached_iff h).mp (hl.reached n ((reached_iff h).mpr hn) p hp)
    · intro n hn
      exact hl.lt n ((reached_iff h).mpr hn)
    · intro n hn hwaits
      exact hl.join n ((reached_iff h).mpr hn) ((waits_iff h).mp hwaits)
    · intro n hn hne hwaits
      rw [waits_iff h] at hwaits
      obtain ⟨p, hdep, hcontinues⟩ := hl.other n ((reached_iff h).mpr hn)
        (fun hmem => hne ((hstarts n).mp hmem)) hwaits
      exact ⟨p, (mem_edges_iff h hno).mpr ⟨hcontinues, hdep, hwaits⟩⟩
    · intro n hn p he
      obtain ⟨hcontinues, hdep, hbarrier⟩ := (mem_edges_iff h hno).mp he
      exact hl.others n ((reached_iff h).mpr hn) hbarrier p hdep hcontinues
  · intro hl
    refine ⟨?_, ?_, ?_, ?_, ?_, ?_⟩
    · intro n hn
      rw [(hstarts n).mp hn]; exact hl.entry
    · intro n hn p hp
      exact (reached_iff h).mpr (hl.reached n ((reached_iff h).mp hn) p hp)
    · intro n hn
      exact hl.lt n ((reached_iff h).mp hn)
    · intro n hn hbarrier
      exact hl.waiting n ((reached_iff h).mp hn) ((waits_iff h).mpr hbarrier)
    · intro n hn hstart hbarrier
      obtain ⟨p, he⟩ := hl.edge n ((reached_iff h).mp hn) (fun heq => hstart ((hstarts n).mpr heq))
        (fun hwaits => hbarrier ((waits_iff h).mp hwaits))
      obtain ⟨hcontinues, hdep, -⟩ := (mem_edges_iff h hno).mp he
      exact ⟨p, hdep, hcontinues⟩
    · intro n hn hbarrier p hdep hcontinues
      exact hl.edges n ((reached_iff h).mp hn) p
        ((mem_edges_iff h hno).mpr ⟨hcontinues, hdep, hbarrier⟩)

end

/-! ## Two plans -/

namespace Sample

/-- An input, a transformation of it, and a node `last` that takes both. -/
def plan (last : NodeKind) : WorkflowPlan where
  adapterVersion := "harness-langgraph-v1"
  nodes := [⟨"a", .input, []⟩, ⟨"b", .transform, []⟩, ⟨"c", last, []⟩]
  edges := [⟨"a", "b", .data⟩, ⟨"a", "c", .data⟩, ⟨"b", "c", .data⟩]
  nodeOrder := ["a", "b", "c"]

/-- The graph in which `c` follows each of its sources. -/
def plainGraph : StateGraph String :=
  ⟨["a", "b", "c"], "a", [("a", "b"), ("a", "c"), ("b", "c")], [], []⟩

/-- The graph in which `c` waits for its sources. -/
def waitingGraph : StateGraph String :=
  ⟨["a", "b", "c"], "a", [("a", "b")], [⟨["a", "b"], "c"⟩], []⟩

theorem lower_plain : lowerHarnessPlan (plan .aggregator) = .ok plainGraph := by rfl

theorem lower_waiting : lowerHarnessPlan (plan .join) = .ok waitingGraph := by rfl

theorem noControl_plan (last : NodeKind) : (plan last).NoControl := by
  simp [WorkflowPlan.NoControl, plan]

theorem singleEntry_plan (last : NodeKind) : (plan last).SingleEntry := by
  refine ⟨"a", by simp [plan, WorkflowPlan.ids], ?_⟩
  rintro n ⟨hn, hno⟩
  simp only [plan, WorkflowPlan.ids, List.map_cons, List.map_nil, List.mem_cons, List.not_mem_nil,
    or_false] at hn
  rcases hn with rfl | rfl | rfl
  · rfl
  · exact absurd rfl (hno ⟨"a", "b", .data⟩ (by simp [plan]))
  · exact absurd rfl (hno ⟨"a", "c", .data⟩ (by simp [plan]))

/-- The place of a node on the longest path into it. -/
def level (n : String) : ℕ := if n = "a" then 0 else if n = "b" then 1 else 2

theorem dependsOn_plan {last : NodeKind} {n p : String} (h : (plan last).DependsOn n p) :
    (p = "a" ∨ p = "b") ∧ level p < level n := by
  obtain ⟨-, -, edge, hmem, rfl, rfl⟩ := h
  simp only [plan, List.mem_cons, List.not_mem_nil, or_false] at hmem
  rcases hmem with rfl | rfl | rfl <;> decide

theorem acyclic_plan (last : NodeKind) : (plan last).Acyclic := by
  intro n hn
  have hlt : Relation.TransGen (· < ·) (level n) (level n) :=
    hn.lift level fun _ _ h => (dependsOn_plan h).2
  rw [Relation.transGen_eq_self] at hlt
  exact absurd hlt (lt_irrefl _)

theorem levels_join : (plan .join).Levels level := by
  have ha : (plan .join).Reached "a" := ⟨"a", by decide, .refl⟩
  have hb : (plan .join).Reached "b" :=
    ⟨"a", by decide, .single ⟨by decide, by decide, ⟨"a", "b", .data⟩, by decide, rfl, rfl⟩⟩
  have hbarrier : ∀ n, n ∈ (plan .join).barrierTargets ↔ n = "c" := by
    intro n
    rw [show (plan .join).barrierTargets = ["c"] by decide, List.mem_singleton]
  refine ⟨?_, ?_, fun n _ p hp => (dependsOn_plan hp).2, ?_, ?_, ?_⟩
  · intro n hn
    rw [show (plan .join).starts = ["a"] by decide, List.mem_singleton] at hn
    rw [hn]; rfl
  · intro n _ p hp
    rcases (dependsOn_plan hp).1 with rfl | rfl
    · exact ha
    · exact hb
  · intro n _ hn
    obtain rfl := (hbarrier n).mp hn
    exact ⟨"b", ⟨by decide, by decide, ⟨"b", "c", .data⟩, by decide, rfl, rfl⟩, by decide⟩
  · intro n hn hstart hno
    obtain ⟨entry, hentry, hpath⟩ := hn
    rcases hpath.cases_tail with rfl | ⟨p, -, hdep⟩
    · exact absurd hentry hstart
    · refine ⟨p, hdep, ?_⟩
      rcases (dependsOn_plan hdep).1 with rfl | rfl
      · exact ⟨⟨"a", .input, []⟩, by decide, rfl, by decide⟩
      · exact ⟨⟨"b", .transform, []⟩, by decide, rfl, by decide⟩
  · rintro n - hno p ⟨-, -, edge, hmem, rfl, rfl⟩ -
    rw [hbarrier] at hno
    simp only [plan, List.mem_cons, List.not_mem_nil, or_false] at hmem
    rcases hmem with rfl | rfl | rfl
    · rfl
    · exact absurd rfl hno
    · exact absurd rfl hno

end Sample

/-! ## When plans run in order -/

/-- **The graph of a plan runs in order exactly when the plan is levelled.** -/
theorem lowering_inOrder_iff {plan : WorkflowPlan} {g : StateGraph String}
    {route : ℕ → String → Option String} (h : lowerHarnessPlan plan = .ok g) (hno : plan.NoControl) :
    RunsInOrder plan g route ↔ plan.Levelled := by
  have hreached : RunsInOrder plan g route ↔
      ∀ n, g.Reached plan.DependsOn n → g.InOrder route plan.DependsOn n :=
    forall_congr' fun n => imp_congr_left (reached_iff h)
  rw [hreached, (schedules_of_lower h hno).inOrder_iff]
  exact exists_congr fun level => (levels_iff h hno).symm

open Sample in
theorem lowering_inOrder_join :
    RunsInOrder (plan .join) waitingGraph fun _ _ => none :=
  (lowering_inOrder_iff lower_waiting (noControl_plan .join)).mpr ⟨level, levels_join⟩

open Sample in
/-- An aggregator runs as soon as its first source has, and again after its second. -/
theorem lowering_out_of_order :
    ¬ ∀ (plan : WorkflowPlan) (g : StateGraph String) (route : ℕ → String → Option String),
      plan.Acyclic → plan.SingleEntry → plan.NoControl → lowerHarnessPlan plan = .ok g →
      RunsInOrder plan g route := by
  intro h
  have hrun := h (plan .aggregator) plainGraph (fun _ _ => none) (acyclic_plan _) (singleEntry_plan _)
    (noControl_plan _) lower_plain
  have hc : (plan .aggregator).Reached "c" :=
    ⟨"a", by decide, .single ⟨by decide, by decide, ⟨"a", "c", .data⟩, by decide, rfl, rfl⟩⟩
  have htwice : 1 = 2 := (hrun "c" hc).1.unique (by decide) (by decide)
  exact absurd htwice (by decide)

end RuntimeLanggraph

end HarnessFramework
