import HarnessFramework.RuntimeCore.Values
import HarnessFramework.RuntimeLanggraph.Lowering

/-!
# The input of a node

`nodeInput` and `allSettledInput` of `packages/runtime-langgraph/src/index.ts`. Several edges into a
node make an object with an entry for each edge, under the edge's target path or else its source. Two
edges with one key make one entry, the later edge's.

## Main definitions

* `GraphPlan` — nodes with prompts and edges with paths
* `HarnessState`, `SettledResult` — what nodes share
* `nodeInput`, `allSettledInput`
* `NoInputLost` — each edge has an entry of its own

## Main results

* `nodeInput_several` — the input of several edges, or of an allSettled join
* `nodeInput_keeps_iff` — no input is lost exactly when the keys of the edges are distinct
-/

namespace HarnessFramework

namespace RuntimeLanggraph

open RuntimeCore

/-! ## Plans and states -/

/-- `graphNodeSchema`. -/
structure PlanNode extends WorkflowNode where
  prompt : Option String
deriving DecidableEq

/-- `graphEdgeSchema`. -/
structure PlanEdge extends WorkflowEdge where
  condition : Option String
  sourcePath : Option String
  targetPath : Option String
deriving DecidableEq

/-- What lowering and the nodes of its graph read of a plan. -/
structure GraphPlan where
  adapterVersion : String
  nodes : List PlanNode
  edges : List PlanEdge
  nodeOrder : List String
deriving DecidableEq

/-- `SettledResult`. -/
inductive SettledResult
  | fulfilled (value : JsValue)
  | rejected (code message : String)

/-- `HarnessState`. What was never written is `undefined`. -/
structure HarnessState where
  input : JsValue
  values : List (String × JsValue)
  settlements : List (String × SettledResult)
  output : JsValue

/-- The object that a `SettledResult` is. -/
def SettledResult.toJs : SettledResult → JsValue
  | .fulfilled value => .obj [("status", .str "fulfilled"), ("value", value)]
  | .rejected code message => .obj [("status", .str "rejected"),
      ("reason", .obj [("code", .str code), ("message", .str message)])]

/-- `state.values[nodeId]`. -/
def HarnessState.value (state : HarnessState) (nodeId : String) : JsValue :=
  (Members.lookup nodeId state.values).getD .undefined

namespace GraphPlan

variable (plan : GraphPlan)

/-- What lowering reads of the plan. -/
def workflow : WorkflowPlan where
  adapterVersion := plan.adapterVersion
  nodes := plan.nodes.map (·.toWorkflowNode)
  edges := plan.edges.map (·.toWorkflowEdge)
  nodeOrder := plan.nodeOrder

/-- The node with an id. -/
def find (nodeId : String) : Option PlanNode := plan.nodes.find? (·.id = nodeId)

/-- The edges into a node that are no control edges. -/
def incoming (nodeId : String) : List PlanEdge :=
  plan.edges.filter fun edge => edge.target = nodeId ∧ edge.kind ≠ .control

/-- An allSettled join. -/
def AllSettled (nodeId : String) : Prop :=
  ∃ node ∈ plan.find nodeId, node.kind = .join ∧ joinMode node.toWorkflowNode = "allSettled"

/-- A node that calls a capability. -/
def Invokes (nodeId : String) : Prop :=
  ∃ node ∈ plan.find nodeId, node.kind ∈ [NodeKind.agent, .tool, .evaluate]

instance : DecidablePred plan.AllSettled := fun nodeId => by
  unfold AllSettled; infer_instance

instance : DecidablePred plan.Invokes := fun nodeId => by
  unfold Invokes; infer_instance

end GraphPlan

/-! ## Inputs -/

/-- `targetPath.replace(/^\//, "")`. -/
def dropSlash (path : String) : String :=
  match path.toList with
  | '/' :: path => String.ofList path
  | _ => path

/-- `edge.targetPath?.replace(/^\//, "") || edge.from`. -/
def entryKey (edge : PlanEdge) : String :=
  match (edge.targetPath.map dropSlash).filter (· ≠ "") with
  | some key => key
  | none => edge.source

/-- What an edge delivers to a join of mode all. -/
def delivered (state : HarnessState) (edge : PlanEdge) : JsValue :=
  getPath (state.value edge.source) edge.sourcePath

/-- What an edge delivers to an allSettled join. -/
def settled (state : HarnessState) (edge : PlanEdge) : SettledResult :=
  (Members.lookup edge.source state.settlements).getD (.fulfilled (delivered state edge))

section

variable (plan : GraphPlan) (nodeId : String) (state : HarnessState)

/-- `allSettledInput`. -/
def allSettledInput : List (String × SettledResult) :=
  Members.fromEntries ((plan.incoming nodeId).map fun edge => (entryKey edge, settled state edge))

/-- The members of the run's input, to which a capability gets the outputs of all nodes. -/
def inputRoot : List (String × JsValue) := state.input.own?.getD [("input", state.input)]

/-- `nodeInput`. -/
def nodeInput : JsValue :=
  if plan.incoming nodeId = [] then state.input
  else if plan.AllSettled nodeId then
    .obj ((allSettledInput plan nodeId state).map fun entry => (entry.1, entry.2.toJs))
  else if plan.Invokes nodeId then .obj (Members.set "evidence" (.obj state.values) (inputRoot state))
  else match plan.incoming nodeId with
    | [edge] => delivered state edge
    | edges => .obj (Members.fromEntries (edges.map fun edge => (entryKey edge, delivered state edge)))

/-- What an edge is to contribute. -/
def contribution (edge : PlanEdge) : JsValue :=
  if plan.AllSettled nodeId then (settled state edge).toJs else delivered state edge

/-- Each edge into the node has an entry of its own in the input. -/
def NoInputLost : Prop :=
  ∃ entries, nodeInput plan nodeId state = .obj entries ∧
    entries.length = (plan.incoming nodeId).length ∧
    ∀ edge ∈ plan.incoming nodeId,
      Members.lookup (entryKey edge) entries = some (contribution plan nodeId state edge)

/-- The keys of the edges into a node are distinct. -/
def DistinctKeys : Prop := ((plan.incoming nodeId).map entryKey).Nodup

instance : Decidable (DistinctKeys plan nodeId) := by
  unfold DistinctKeys; infer_instance

end

section

variable {plan : GraphPlan} {nodeId : String} {state : HarnessState}

/-- What the edges into a node are to contribute, under their keys. -/
theorem keys_contributions (plan : GraphPlan) (nodeId : String) (state : HarnessState)
    (edges : List PlanEdge) :
    Members.keys (edges.map fun edge => (entryKey edge, contribution plan nodeId state edge))
      = edges.map entryKey := by
  rw [Members.keys, List.map_map]; rfl

/-- **The input of an allSettled join.** -/
theorem nodeInput_allSettled (state : HarnessState) (hedges : plan.incoming nodeId ≠ []) (h : plan.AllSettled nodeId) :
    ∃ entries, nodeInput plan nodeId state = .obj entries ∧
      (entries.length = (plan.incoming nodeId).length ↔ DistinctKeys plan nodeId) ∧
      ∀ key, Members.lookup key entries = Members.lookup key ((plan.incoming nodeId).map
        fun edge => (entryKey edge, contribution plan nodeId state edge)).reverse := by
  refine ⟨_, by rw [nodeInput, if_neg hedges, if_pos h], ?_, fun key => ?_⟩
  · rw [List.length_map, allSettledInput, DistinctKeys,
      ← keys_contributions plan nodeId state]
    have hlength := Members.length_fromEntries_eq_iff
      ((plan.incoming nodeId).map fun edge => (entryKey edge, settled state edge))
    rw [List.length_map, Members.keys, List.map_map] at hlength
    rw [hlength, Members.keys, List.map_map]
    exact Iff.rfl
  · have hcontribution : ∀ edge, contribution plan nodeId state edge = (settled state edge).toJs :=
      fun edge => if_pos h
    rw [Members.lookup_map, allSettledInput, Members.lookup_fromEntries, ← Members.lookup_map,
      List.map_reverse, List.map_map]
    simp only [hcontribution]
    rfl

/-- **The input of several edges.** -/
theorem nodeInput_edges (hedges : 2 ≤ (plan.incoming nodeId).length) (h : ¬ plan.AllSettled nodeId)
    (hinvokes : ¬ plan.Invokes nodeId) :
    ∃ entries, nodeInput plan nodeId state = .obj entries ∧
      (entries.length = (plan.incoming nodeId).length ↔ DistinctKeys plan nodeId) ∧
      ∀ key, Members.lookup key entries = Members.lookup key ((plan.incoming nodeId).map
        fun edge => (entryKey edge, contribution plan nodeId state edge)).reverse := by
  have hcontribution : ∀ edge, contribution plan nodeId state edge = delivered state edge :=
    fun edge => if_neg h
  have hinput : nodeInput plan nodeId state = .obj (Members.fromEntries
      ((plan.incoming nodeId).map fun edge => (entryKey edge, contribution plan nodeId state edge))) := by
    simp only [hcontribution]
    match hincoming : plan.incoming nodeId with
    | [] => rw [hincoming] at hedges; simp at hedges
    | [edge] => rw [hincoming] at hedges; simp at hedges
    | edge :: edge' :: edges =>
      rw [nodeInput, if_neg (by rw [hincoming]; exact List.cons_ne_nil _ _), if_neg h,
        if_neg hinvokes, hincoming]
  refine ⟨_, hinput, ?_, fun key => Members.lookup_fromEntries _ key⟩
  have hlength := Members.length_fromEntries_eq_iff ((plan.incoming nodeId).map
    fun edge => (entryKey edge, contribution plan nodeId state edge))
  rwa [List.length_map, keys_contributions] at hlength

/-- The input of several edges, or of an allSettled join, has the last contribution under each key. -/
theorem nodeInput_several (state : HarnessState) (hinvokes : ¬ plan.Invokes nodeId)
    (hedges : plan.incoming nodeId ≠ [])
    (hseveral : plan.AllSettled nodeId ∨ 2 ≤ (plan.incoming nodeId).length) :
    ∃ entries, nodeInput plan nodeId state = .obj entries ∧
      (entries.length = (plan.incoming nodeId).length ↔ DistinctKeys plan nodeId) ∧
      ∀ key, Members.lookup key entries = Members.lookup key ((plan.incoming nodeId).map
        fun edge => (entryKey edge, contribution plan nodeId state edge)).reverse := by
  by_cases h : plan.AllSettled nodeId
  · exact nodeInput_allSettled state hedges h
  · exact nodeInput_edges (hseveral.resolve_left h) h hinvokes

end

/-! ## When no input is lost -/

namespace Sample

/-- Two parts of what one node returns, collected by another: the second under the given path. -/
def collecting (targetPath : Option String) : GraphPlan where
  adapterVersion := "harness-langgraph-v1"
  nodes := [⟨⟨"screen", .input, []⟩, none⟩, ⟨⟨"collect", .aggregator, []⟩, none⟩]
  edges := [⟨⟨"screen", "collect", .data⟩, none, some "/name", none⟩,
    ⟨⟨"screen", "collect", .data⟩, none, some "/country", targetPath⟩]
  nodeOrder := ["screen", "collect"]

/-- The state once the first node has run. -/
def screened : HarnessState where
  input := .undefined
  values := [("screen", .obj [("name", .str "A"), ("country", .str "DE")])]
  settlements := []
  output := .undefined

end Sample

/-- **A node gets all its inputs exactly when the edges into it have distinct keys.** A join without
edges is handed the input of the run. -/
theorem nodeInput_keeps_iff {plan : GraphPlan} {nodeId : String} (hinvokes : ¬ plan.Invokes nodeId)
    (hseveral : plan.AllSettled nodeId ∨ 2 ≤ (plan.incoming nodeId).length) (state : HarnessState) :
    NoInputLost plan nodeId state ↔
      DistinctKeys plan nodeId ∧ (plan.incoming nodeId = [] → state.input = .obj []) := by
  by_cases hedges : plan.incoming nodeId = []
  · have hinput : nodeInput plan nodeId state = state.input := by rw [nodeInput, if_pos hedges]
    rw [NoInputLost, hinput, DistinctKeys, hedges]
    constructor
    · rintro ⟨entries, hentries, hlength, -⟩
      rw [List.length_nil, List.length_eq_zero_iff] at hlength
      exact ⟨List.nodup_nil, fun _ => by rw [hentries, hlength]⟩
    · rintro ⟨-, hempty⟩
      exact ⟨[], hempty rfl, rfl, nofun⟩
  · obtain ⟨entries, hinput, hlength, hlookup⟩ :=
      nodeInput_several state hinvokes hedges hseveral
    constructor
    · rintro ⟨entries', hinput', hlength', -⟩
      rw [hinput, JsValue.obj.injEq] at hinput'
      exact ⟨hlength.mp (hinput' ▸ hlength'), fun hnil => absurd hnil hedges⟩
    · rintro ⟨hdistinct, -⟩
      refine ⟨entries, hinput, hlength.mpr hdistinct, fun edge hedge => ?_⟩
      have hmem : (entryKey edge, contribution plan nodeId state edge) ∈ (plan.incoming nodeId).map
          fun edge => (entryKey edge, contribution plan nodeId state edge) := List.mem_map_of_mem hedge
      rw [hlookup, ← Members.lookup_fromEntries]
      refine Members.lookup_fromEntries_of_mem ?_ hmem
      rw [keys_contributions]
      exact hdistinct

open Sample in
theorem nodeInput_keeps_sample : NoInputLost (collecting (some "/country")) "collect" screened :=
  (nodeInput_keeps_iff (by decide) (by decide) screened).mpr ⟨by decide, fun h => absurd h (by decide)⟩

open Sample in
/-- Two edges from one source without target paths make one entry. -/
theorem nodeInput_loses :
    ¬ ∀ (plan : GraphPlan) (nodeId : String) (state : HarnessState), ¬ plan.Invokes nodeId →
      plan.AllSettled nodeId ∨ 2 ≤ (plan.incoming nodeId).length → NoInputLost plan nodeId state := by
  intro h
  obtain ⟨entries, hinput, hlength, -⟩ :=
    h (collecting none) "collect" screened (by decide) (by decide)
  obtain rfl : entries = [("screen", .str "DE")] := (JsValue.obj.inj hinput).symm
  exact absurd hlength (by decide)

end RuntimeLanggraph

end HarnessFramework
