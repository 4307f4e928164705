import HarnessFramework.ControlApi.Attachment
import HarnessFramework.RuntimeLanggraph.Routing

/-!
# Routing after an insertion

An agent that is inserted behind a condition node takes over its control edges, labels included, but the
expression stays behind. So the router of the new node looks for the label `undefined`, and finds its
way by the conditions of the edges alone.

What the compiler makes of a workflow is not in the repository as a whole; a plan is one of a workflow if
it has the workflow's nodes, expressions and control edges, in their order.

## Main definitions

* `PlanOf` — a plan carries the nodes, expressions and control edges of a workflow
* `ReadsAlike` — two states agree on what an expression and conditions read
* `SameRoute` — a label and `undefined` lead the same way

## Main results

* `firstTarget_eq` — which target a label leads to
* `insertAfter_routes_iff` — routing is preserved exactly when the label and `undefined` lead the same way
-/

namespace HarnessFramework

namespace ControlApi

open RuntimeCore RuntimeLanggraph

/-! ## Plans of a workflow -/

/-- The expression of a node, if it has one that is not empty. -/
def expressionOf (workflow : Json) (nodeId : String) : Option String :=
  (((nodesOf workflow).find? (memberAt "id" · = some (.str nodeId))).bind fun node =>
    textOf (Members.lookup "expression" (membersOf (memberAt "config" node)))).filter (· ≠ "")

/-- A control edge out of a node. -/
def IsControl (nodeId : String) (edge : Json) : Prop :=
  memberAt "from" edge = some (.str nodeId) ∧ memberAt "kind" edge = some (.str "control")

instance (nodeId : String) : DecidablePred (IsControl nodeId) := fun _ => inferInstanceAs (Decidable (_ ∧ _))

/-- The condition and the target of an edge. -/
def choice (edge : Json) : Option String × Option String :=
  (textOf (memberAt "condition" edge), textOf (memberAt "to" edge))

/-- The conditions and targets of the control edges out of a node. -/
def choicesOf (workflow : Json) (nodeId : String) : List (Option String × Option String) :=
  ((edgesOf workflow).filter (IsControl nodeId ·)).map choice

/-- **A plan carries the nodes, expressions and control edges of a workflow**, whose edges leave nodes. -/
structure PlanOf (workflow : Json) (plan : GraphPlan) : Prop where
  ids : plan.nodes.map (fun node => some (Json.str node.id)) = idsOf workflow
  expression : ∀ nodeId, plan.expression nodeId = expressionOf workflow nodeId
  choices : ∀ nodeId,
    (plan.controlEdges nodeId).map (fun edge => (edge.condition, some edge.target)) = choicesOf workflow nodeId
  resolved : ∀ edge ∈ edgesOf workflow, memberAt "from" edge ∈ idsOf workflow

/-! ## Where a label leads -/

/-- A condition holds. -/
def HoldsIn (scope : List (String × JsValue)) (option : Option String × Option String) : Prop :=
  RuntimeCore.evaluateCondition option.1 scope = true

instance (scope : List (String × JsValue)) : DecidablePred (HoldsIn scope) := fun _ =>
  inferInstanceAs (Decidable (_ = _))

/-- The target of the first choice that is labelled with a text or holds. -/
def firstTarget (label : String) (scope : List (String × JsValue))
    (choices : List (Option String × Option String)) : Option String :=
  (choices.find? fun option => option.1 = some label ∨ HoldsIn scope option).bind Prod.snd

/-- The target of the first choice with a label, or else of the first choice that holds, if no choice before
it has the label. -/
def labelTarget (label : String) (scope : List (String × JsValue))
    (choices : List (Option String × Option String)) : Option String :=
  (((choices.takeWhile fun option => ¬HoldsIn scope option).find? (·.1 = some label)).or
    (choices.find? (HoldsIn scope ·))).bind Prod.snd

theorem firstTarget_eq (label : String) (scope : List (String × JsValue))
    (choices : List (Option String × Option String)) :
    firstTarget label scope choices = labelTarget label scope choices := by
  rw [firstTarget, labelTarget]
  congr 1
  induction choices with
  | nil => rfl
  | cons option choices ih =>
    rw [List.find?_cons, List.takeWhile_cons, List.find?_cons]
    by_cases hholds : HoldsIn scope option
    · simp [hholds]
    · simp only [hholds, or_false, not_false_eq_true, decide_true, decide_false, if_true,
        List.find?_cons]
      by_cases hlabel : option.1 = some label
      · simp [hlabel]
      · simp only [hlabel, decide_false]
        exact ih

/-- **A label and `undefined` lead the same way** in a state. -/
def SameRoute (label : String) (scope : List (String × JsValue))
    (choices : List (Option String × Option String)) : Prop :=
  labelTarget label scope choices = labelTarget "undefined" scope choices

/-- A router takes the choice that the plan's workflow has for the label. -/
theorem routeFor_eq_labelTarget (sha256 : List Char → String) (runtime : Runtime) {workflow : Json}
    {plan : GraphPlan} (hplan : PlanOf workflow plan) (nodeId : String) (state : HarnessState) :
    routeFor (runtime.withCore sha256) plan nodeId state
      = labelTarget (plan.routedText nodeId state) state.scope (choicesOf workflow nodeId) := by
  have htarget : ∀ edge : Option PlanEdge,
      (edge.map fun edge => (edge.condition, some edge.target)).bind Prod.snd = edge.map (·.target) := by
    intro edge
    cases edge <;> rfl
  rw [routeFor_eq_firstTaken, ← hplan.choices, ← firstTarget_eq, firstTarget, List.find?_map, htarget]
  rfl

/-- Where a label leads depends on which choices hold. -/
theorem labelTarget_congr (label : String) {scope scope' : List (String × JsValue)}
    {choices : List (Option String × Option String)}
    (h : ∀ option ∈ choices, HoldsIn scope option ↔ HoldsIn scope' option) :
    labelTarget label scope choices = labelTarget label scope' choices := by
  rw [← firstTarget_eq, ← firstTarget_eq, firstTarget, firstTarget]
  congr 1
  induction choices with
  | nil => rfl
  | cons option choices ih =>
    obtain ⟨hoption, hchoices⟩ := List.forall_mem_cons.mp h
    rw [List.find?_cons, List.find?_cons, ih hchoices]
    simp only [hoption]

/-! ## States -/

/-- **Two states agree on what is at paths.** -/
def ReadsAlike (paths : List String) (state state' : HarnessState) : Prop :=
  ∀ path ∈ paths, getPath (.obj state.scope) (some path) = getPath (.obj state'.scope) (some path)

/-- The paths that the expression of a node and the conditions of its control edges read. -/
def routingPaths (workflow : Json) (nodeId : String) : List String :=
  (expressionOf workflow nodeId).toList ++ (choicesOf workflow nodeId).filterMap (conditionPath ·.1)

theorem ReadsAlike.holdsIn {workflow : Json} {nodeId : String} {state state' : HarnessState}
    (h : ReadsAlike (routingPaths workflow nodeId) state state') :
    ∀ option ∈ choicesOf workflow nodeId, HoldsIn state'.scope option ↔ HoldsIn state.scope option := by
  intro option hoption
  have heq : RuntimeCore.evaluateCondition option.1 state.scope
      = RuntimeCore.evaluateCondition option.1 state'.scope := evaluateCondition_congr fun path hpath =>
    h path (List.mem_append_right _ (List.mem_filterMap.mpr ⟨option, hoption, hpath⟩))
  rw [HoldsIn, HoldsIn, heq]

/-! ## The inserted node -/

section

variable {agent : AgentRegistration} {workflow workflow' : Json} {selected inserted : String}

theorem choicesOf_eq (workflow : Json) (nodeId : String) : choicesOf workflow nodeId
    = ((outgoing workflow (some (.str nodeId))).filter
        (memberAt "kind" · = some (.str "control"))).map choice := by
  rw [choicesOf, outgoing, List.filter_filter]
  refine congrArg _ (List.filter_congr fun edge _ => ?_)
  rw [Bool.eq_iff_iff, Bool.and_eq_true, decide_eq_true_iff, decide_eq_true_iff, decide_eq_true_iff]
  exact and_comm

namespace InsertsAgent

variable (h : InsertsAgent agent workflow workflow' selected inserted)

include h

/-- The inserted node has the control edges that the selected node had. -/
theorem choicesOf_inserted (hedges : HasEdges workflow)
    (hresolved : ∀ edge ∈ edgesOf workflow, memberAt "from" edge ∈ idsOf workflow) :
    choicesOf workflow' inserted = choicesOf workflow selected := by
  have hkind : ∀ edge, memberAt "kind" (withSource inserted edge) = memberAt "kind" edge := fun edge => by
    rw [memberAt_withSource, if_neg (by decide)]
  have hchoice : ∀ edge, choice (withSource inserted edge) = choice edge := fun edge => by
    rw [choice, choice, memberAt_withSource, if_neg (by decide), memberAt_withSource, if_neg (by decide)]
  rw [choicesOf_eq, choicesOf_eq, h.outgoing_inserted hedges fun edge hedge heq =>
    h.fresh (heq ▸ hresolved edge hedge), List.filter_map, List.map_map]
  simp only [Function.comp_def, hkind, hchoice]

/-- The inserted node has no expression. -/
theorem expressionOf_inserted : expressionOf workflow' inserted = none := by
  obtain ⟨before, node, after, hnodes, hid, hnodes'⟩ := h.nodes
  have hbefore : ∀ other ∈ before ++ [node], memberAt "id" other ≠ some (.str inserted) := by
    intro other hother heq
    refine h.fresh (heq ▸ List.mem_map_of_mem (?_ : other ∈ nodesOf workflow))
    rw [hnodes]
    simp only [List.mem_append, List.mem_cons, List.not_mem_nil, or_false] at hother ⊢
    tauto
  have hfind : (nodesOf workflow').find? (memberAt "id" · = some (.str inserted))
      = some (agentNode agent inserted [] []) := by
    rw [hnodes', show before ++ node :: agentNode agent inserted [] [] :: after
      = (before ++ [node]) ++ agentNode agent inserted [] [] :: after by simp, List.find?_append,
      List.find?_eq_none.mpr fun other hother => by simpa using hbefore other hother, Option.none_or,
      List.find?_cons, memberAt_agentNode, decide_eq_true rfl]
  have hconfig : memberAt "config" (agentNode agent inserted [] []) = some (.obj <| Members.spread
      (Members.spread [("caseWrites", .arr agent.caseWrites)] [])
      [("agentRef", .str agent.id), ("agentVersion", .str agent.version),
        ("skillRefs", texts agent.skillIds), ("modelProfileId", .str agent.modelProfileId),
        ("runtimeTarget", .str agent.runtimeTarget)]) := by
    rw [memberAt, agentNode, membersOf, Members.lookup_spread]
    simp [Members.lookup_cons]
  have hnone : Members.lookup "expression" (membersOf (memberAt "config" (agentNode agent inserted [] [])))
      = none := by
    rw [hconfig, membersOf, Members.lookup_spread, Members.lookup_spread]
    simp [Members.lookup_cons]
  rw [expressionOf, hfind, Option.bind_some, hnone]
  rfl

end InsertsAgent

end

/-- A node with control edges has a router. -/
theorem PlanOf.router {workflow : Json} {plan : GraphPlan} (hplan : PlanOf workflow plan) {nodeId : String}
    (hnode : some (.str nodeId) ∈ idsOf workflow) (hcontrol : choicesOf workflow nodeId ≠ [])
    {g : StateGraph String} (hlower : lowerHarnessPlan plan.workflow = .ok g) :
    ∃ destinations, (nodeId, destinations) ∈ g.routers := by
  obtain ⟨-, -, -, -, -, -, -, hrouters⟩ := lowerHarnessPlan_ok hlower
  rw [← hplan.ids, List.mem_map] at hnode
  obtain ⟨node, hnode, hid⟩ := hnode
  obtain rfl : node.id = nodeId := Json.str.inj (Option.some_inj.mp hid)
  rw [← hplan.choices, Ne, List.map_eq_nil_iff] at hcontrol
  obtain ⟨edge, hedge⟩ := List.exists_mem_of_ne_nil _ hcontrol
  obtain ⟨hedge, hkind⟩ := List.mem_filter.mp hedge
  rw [decide_eq_true_eq] at hkind
  have hcontrols : edge.toWorkflowEdge ∈ plan.workflow.controls node.toWorkflowNode := by
    refine List.mem_filter.mpr ⟨List.mem_filter.mpr ⟨List.mem_map_of_mem hedge, ?_⟩, ?_⟩
    · exact decide_eq_true hkind.1
    · exact decide_eq_true hkind.2
  rw [hrouters]
  refine ⟨_, List.mem_map.mpr ⟨node.toWorkflowNode, List.mem_filter.mpr
    ⟨List.mem_map_of_mem hnode, decide_eq_true ?_⟩, rfl⟩⟩
  exact List.ne_nil_of_mem hcontrols

namespace Sample

/-- A condition node that reads the risk. -/
def decider : Json :=
  .obj [("id", .str "decide"), ("kind", .str "condition"), ("config", .obj [("expression", .str "/risk")])]

def controlEdge (id source target condition : String) : Json :=
  .obj [("id", .str id), ("from", .str source), ("to", .str target), ("kind", .str "control"),
    ("condition", .str condition)]

/-- A workflow that goes on from the condition node by the risk. -/
def deciding : List (String × Json) :=
  [("nodes", .arr [decider, node "approve" "output", node "review" "output"]),
    ("edges", .arr [controlEdge "c1" "decide" "approve" "low", controlEdge "c2" "decide" "review" "high"])]

/-- The workflow with an agent behind the condition node. -/
def audited : List (String × Json) :=
  [("nodes", .arr [decider, agentNode reviewer "audit" [] [], node "approve" "output",
      node "review" "output"]),
    ("edges", .arr [controlEdge "c1" "audit" "approve" "low", controlEdge "c2" "audit" "review" "high",
      edge "edge-decide-audit" "decide" "audit"])]

/-- How a control edge is written. -/
def controlText (id source target condition : String) : String :=
  "    - id: " ++ id ++ "\n      from: " ++ source ++ "\n      to: " ++ target ++
    "\n      kind: control\n      condition: " ++ condition ++ "\n"

/-- How the workflow with the agent is written. -/
def auditedText : String :=
  "    - id: decide\n      kind: condition\n      config:\n        expression: /risk\n" ++
  agentText "audit" ++ nodeText "approve" "output" ++ nodeText "review" "output" ++ "  edges:\n" ++
  controlText "c1" "audit" "approve" "low" ++ controlText "c2" "audit" "review" "high" ++
  edgeText "edge-decide-audit" "decide" "audit"

theorem apply_deciding (yaml : Yaml) :
    applyAgentToAuthoringSources yaml (sources yaml pkg deciding) (behind "decide" "audit")
      = .ok (sources yaml pkgWithAgent audited, "audit") := by
  have hnode : attachNode (behind "decide" "audit") deciding = .ok (audited, "audit") := by rfl
  exact applyAgent_eq rfl hnode (attachContracts_pkg _ _ _)

/-- A node of a plan. -/
def planNode (id : String) (kind : NodeKind) (config : List (String × Json)) : PlanNode where
  id := id
  kind := kind
  config := config
  prompt := none

/-- An edge of a plan. -/
def planEdge (source target : String) (kind : EdgeKind) (condition : Option String) : PlanEdge where
  source := source
  target := target
  kind := kind
  condition := condition
  sourcePath := none
  targetPath := none

/-- The plan of the workflow. -/
def decidingPlan : GraphPlan where
  adapterVersion := "harness-langgraph-v1"
  nodes := [planNode "decide" .condition [("expression", .str "/risk")], planNode "approve" .output [],
    planNode "review" .output []]
  edges := [planEdge "decide" "approve" .control (some "low"), planEdge "decide" "review" .control (some "high")]
  nodeOrder := ["decide", "approve", "review"]

/-- The plan of the workflow with the agent. -/
def auditedPlan : GraphPlan where
  adapterVersion := "harness-langgraph-v1"
  nodes := [planNode "decide" .condition [("expression", .str "/risk")],
    planNode "audit" .evaluate [("agentRef", .str "reviewer")], planNode "approve" .output [],
    planNode "review" .output []]
  edges := [planEdge "audit" "approve" .control (some "low"), planEdge "audit" "review" .control (some "high"),
    planEdge "decide" "audit" .data none]
  nodeOrder := ["decide", "audit", "approve", "review"]

/-- The graph of the plan with the agent. -/
def auditedGraph : StateGraph String where
  nodes := ["decide", "audit", "approve", "review"]
  entry := "decide"
  edges := [("decide", "audit")]
  waiting := []
  routers := [("audit", ["approve", "review"])]

theorem lower_audited : lowerHarnessPlan auditedPlan.workflow = .ok auditedGraph := by rfl

/-- The agent has run. -/
def riskyAudited : HarnessState := { RuntimeLanggraph.Sample.risky with values := [("risk", .str "high"), ("audit", .null)] }

theorem nodesOf_deciding : nodesOf (.obj (workflow deciding))
    = [decider, node "approve" "output", node "review" "output"] := rfl

theorem nodesOf_audited : nodesOf (.obj (workflow audited))
    = [decider, agentNode reviewer "audit" [] [], node "approve" "output", node "review" "output"] := rfl

theorem edgesOf_deciding : edgesOf (.obj (workflow deciding))
    = [controlEdge "c1" "decide" "approve" "low", controlEdge "c2" "decide" "review" "high"] := rfl

theorem edgesOf_audited : edgesOf (.obj (workflow audited))
    = [controlEdge "c1" "audit" "approve" "low", controlEdge "c2" "audit" "review" "high",
      edge "edge-decide-audit" "decide" "audit"] := rfl

theorem planOf_deciding : PlanOf (.obj (workflow deciding)) decidingPlan where
  ids := rfl
  expression nodeId := by
    by_cases h : nodeId = "decide"
    · subst h; rfl
    by_cases happrove : nodeId = "approve"
    · subst happrove; rfl
    by_cases hreview : nodeId = "review"
    · subst hreview; rfl
    rw [GraphPlan.expression, GraphPlan.find, expressionOf, nodesOf_deciding]
    simp [decidingPlan, planNode, decider, node, memberAt, membersOf, Members.lookup_cons, Ne.symm h,
      Ne.symm happrove, Ne.symm hreview]
  choices nodeId := by
    by_cases h : nodeId = "decide"
    · subst h; rfl
    rw [GraphPlan.controlEdges, choicesOf, edgesOf_deciding]
    simp [decidingPlan, planEdge, IsControl, controlEdge, memberAt, membersOf, Members.lookup_cons, Ne.symm h]
  resolved := by decide

theorem planOf_audited : PlanOf (.obj (workflow audited)) auditedPlan where
  ids := by
    rw [idsOf, nodesOf_audited]
    simp only [List.map_cons, memberAt_agentNode]
    rfl
  expression nodeId := by
    by_cases h : nodeId = "decide"
    · subst h; rfl
    by_cases haudit : nodeId = "audit"
    · subst haudit; rfl
    by_cases happrove : nodeId = "approve"
    · subst happrove; rfl
    by_cases hreview : nodeId = "review"
    · subst hreview; rfl
    rw [GraphPlan.expression, GraphPlan.find, expressionOf, nodesOf_audited]
    simp only [List.find?_cons, memberAt_agentNode]
    simp [auditedPlan, planNode, decider, node, memberAt, membersOf, Members.lookup_cons, Ne.symm h,
      Ne.symm haudit, Ne.symm happrove, Ne.symm hreview]
  choices nodeId := by
    by_cases h : nodeId = "audit"
    · subst h; rfl
    rw [GraphPlan.controlEdges, choicesOf, edgesOf_audited]
    simp [auditedPlan, planEdge, IsControl, controlEdge, edge, memberAt, membersOf, Members.lookup_cons,
      Ne.symm h]
  resolved := by
    rw [idsOf, nodesOf_audited]
    simp only [List.map_cons, memberAt_agentNode]
    decide

theorem routingPaths_deciding :
    routingPaths (.obj (workflow deciding)) "decide" = ["/risk", "low", "high"] := by rfl

theorem readsAlike_risky :
    ReadsAlike (routingPaths (.obj (workflow deciding)) "decide") RuntimeLanggraph.Sample.risky
      riskyAudited := by
  rw [routingPaths_deciding]
  refine List.forall_mem_cons.mpr ⟨rfl, List.forall_mem_cons.mpr ⟨rfl, List.forall_mem_cons.mpr ⟨rfl, nofun⟩⟩⟩

theorem routedText_deciding : decidingPlan.routedText "decide" RuntimeLanggraph.Sample.risky = "high" :=
  jsText_str "high"

end Sample

end ControlApi

end HarnessFramework
