import HarnessFramework.RuntimeCore.Conditions
import HarnessFramework.RuntimeCore.Transforms
import HarnessFramework.RuntimeLanggraph.Execution

/-!
# Routing by an expression

`routeFor` of `packages/runtime-langgraph/src/index.ts`, with the conditions of
`packages/runtime-core/src/index.ts`. It takes the first outgoing control edge that is labelled with the
value of the node's expression or whose condition holds in the state. So an edge without a label for
the value is taken before the labelled one if its condition holds.

## Main definitions

* `Runtime.withCore` — nodes that transform values and evaluate conditions as the runtime core does
* `GraphPlan.controlEdges`, `GraphPlan.expression`, `GraphPlan.routedText` — what a router reads
* `firstTaken` — the edge a router takes

## Main results

* `routeFor_eq_firstTaken` — a router takes that edge
* `firstTaken_of_label` — what it is where an edge is labelled with the value
* `routeFor_of_label` — a router takes the edge labelled with the value, or one before it that holds
-/

namespace HarnessFramework

namespace RuntimeLanggraph

open RuntimeCore

/-- **Nodes that work as the runtime core says.** -/
def Runtime.withCore (sha256 : List Char → String) (runtime : Runtime) : Runtime :=
  { runtime with
    transformValue := RuntimeCore.transformValue sha256
    aggregateValue := RuntimeCore.aggregateValue sha256
    evaluateCondition := RuntimeCore.evaluateCondition }

/-! ## What a router reads -/

namespace GraphPlan

variable (plan : GraphPlan) (nodeId : String)

/-- The control edges out of a node. -/
def controlEdges : List PlanEdge := plan.edges.filter fun edge => edge.source = nodeId ∧ edge.kind = .control

/-- The expression of a node, if it has one that is not empty. -/
def expression : Option String :=
  match (plan.find nodeId).bind (lastMember "expression" ·.config) with
  | some (.str text) => if text = "" then none else some text
  | _ => none

/-- The label that a router looks for. -/
def routedText (state : HarnessState) : String :=
  jsText <| match plan.expression nodeId with
    | some text => getPath (.obj state.scope) (some text)
    | none => .undefined

end GraphPlan

/-- The condition of an edge holds. -/
def Holds (scope : List (String × JsValue)) (edge : PlanEdge) : Prop :=
  RuntimeCore.evaluateCondition edge.condition scope = true

/-- An edge is labelled with a text. -/
def Labelled (label : String) (edge : PlanEdge) : Prop := edge.condition = some label

instance (scope : List (String × JsValue)) : DecidablePred (Holds scope) := fun _ =>
  inferInstanceAs (Decidable (_ = _))

instance (label : String) : DecidablePred (Labelled label) := fun _ => inferInstanceAs (Decidable (_ = _))

/-- The first edge that is labelled with a text or holds. -/
def firstTaken (label : String) (scope : List (String × JsValue)) (edges : List PlanEdge) :
    Option PlanEdge := edges.find? fun edge => Labelled label edge ∨ Holds scope edge

/-- **A router takes the first edge that is labelled with the value or holds.** -/
theorem routeFor_eq_firstTaken (sha256 : List Char → String) (runtime : Runtime) (plan : GraphPlan)
    (nodeId : String) (state : HarnessState) :
    routeFor (runtime.withCore sha256) plan nodeId state
      = (firstTaken (plan.routedText nodeId state) state.scope (plan.controlEdges nodeId)).map (·.target) := by
  rw [firstTaken, GraphPlan.routedText, GraphPlan.expression]
  rfl

/-! ## Labelled edges -/

/-- The first edge labelled with a text. -/
def firstLabelled (label : String) (edges : List PlanEdge) : Option PlanEdge := edges.find? (Labelled label ·)

/-- The edges before the first that is labelled with a text. -/
def beforeLabel (label : String) (edges : List PlanEdge) : List PlanEdge :=
  edges.takeWhile fun edge => ¬Labelled label edge

/-- **Where an edge is labelled, it is taken or one before it that holds.** -/
theorem firstTaken_of_label {label : String} {edges : List PlanEdge} {edge : PlanEdge}
    (h : firstLabelled label edges = some edge) (scope : List (String × JsValue)) :
    firstTaken label scope edges = some (((beforeLabel label edges).find? (Holds scope ·)).getD edge) := by
  induction edges with
  | nil => cases h
  | cons head edges ih =>
    rw [firstLabelled, List.find?_cons] at h
    rw [firstTaken, List.find?_cons, beforeLabel, List.takeWhile_cons]
    by_cases hlabel : Labelled label head
    · simp only [hlabel, decide_true, Option.some.injEq] at h
      simp [← h, hlabel]
    · simp only [hlabel, decide_false] at h
      simp only [hlabel, false_or, not_false_eq_true, decide_true, if_true, List.find?_cons]
      by_cases hholds : Holds scope head
      · simp [hholds]
      · simp only [hholds, decide_false]
        exact ih h

/-- **Routing by an expression**: the first outgoing control edge labelled with the value decides, unless
an edge before it holds in the state. Which edges hold after it does not matter. -/
theorem routeFor_of_label (sha256 : List Char → String) (runtime : Runtime) {plan : GraphPlan}
    {nodeId : String} (state : HarnessState) {expression : String} {edge : PlanEdge}
    (hexpression : plan.expression nodeId = some expression)
    (hlabel : firstLabelled (jsText (getPath (.obj state.scope) (some expression)))
      (plan.controlEdges nodeId) = some edge) :
    let before := beforeLabel (jsText (getPath (.obj state.scope) (some expression)))
      (plan.controlEdges nodeId)
    let route := routeFor (runtime.withCore sha256) plan nodeId state
    route = some ((before.find? (Holds state.scope ·)).getD edge).target ∧
      ((∀ earlier ∈ before, ¬Holds state.scope earlier) → route = some edge.target) := by
  intro before route
  have htext : plan.routedText nodeId state = jsText (getPath (.obj state.scope) (some expression)) := by
    rw [GraphPlan.routedText, hexpression]
  have hroute : route = some ((before.find? (Holds state.scope ·)).getD edge).target := by
    show routeFor (runtime.withCore sha256) plan nodeId state = _
    rw [routeFor_eq_firstTaken, htext, firstTaken_of_label hlabel, Option.map_some]
  refine ⟨hroute, fun hnone => ?_⟩
  have hfind : before.find? (Holds state.scope ·) = none :=
    List.find?_eq_none.mpr fun earlier hearlier => by simpa using hnone earlier hearlier
  rw [hroute, hfind, Option.getD_none]

namespace Sample

/-- A control edge with a condition. -/
def controlEdge (target : String) (condition : Option String) : PlanEdge where
  source := "decide"
  target := target
  kind := .control
  condition := condition
  sourcePath := none
  targetPath := none

/-- A condition node that reads the risk, with the given edges. -/
def deciding (edges : List PlanEdge) : GraphPlan where
  adapterVersion := "harness-langgraph-v1"
  nodes := [{ id := "decide", kind := .condition, config := [("expression", .str "/risk")], prompt := none }]
  edges := edges
  nodeOrder := ["decide"]

/-- The risk is high. -/
def risky : HarnessState where
  input := .null
  values := [("risk", .str "high")]
  settlements := []
  output := .undefined

theorem routedText_risky : jsText (getPath (.obj risky.scope) (some "/risk")) = "high" := jsText_str "high"

end Sample

open Sample in
theorem routeFor_of_label_sample :
    let edges := [controlEdge "approve" (some "low"), controlEdge "review" (some "high"),
      controlEdge "fallback" none]
    let before := beforeLabel (jsText (getPath (.obj risky.scope) (some "/risk")))
      ((deciding edges).controlEdges "decide")
    let route := routeFor (Sample.runtime.withCore String.ofList) (deciding edges) "decide" risky
    route = some ((before.find? (Holds risky.scope ·)).getD (controlEdge "review" (some "high"))).target ∧
      ((∀ earlier ∈ before, ¬Holds risky.scope earlier) → route = some "review") :=
  routeFor_of_label String.ofList Sample.runtime risky (by decide) (by rw [routedText_risky]; decide)

/-- An edge without a condition is taken before the edge labelled with the value. -/
theorem routeFor_ignores_label :
    ¬∀ (plan : GraphPlan) (nodeId : String) (state : HarnessState) (expression : String) (edge : PlanEdge),
      plan.expression nodeId = some expression →
        firstLabelled (jsText (getPath (.obj state.scope) (some expression)))
          (plan.controlEdges nodeId) = some edge →
        routeFor (Sample.runtime.withCore String.ofList) plan nodeId state = some edge.target := by
  intro h
  have hroute := h (Sample.deciding [Sample.controlEdge "fallback" none,
    Sample.controlEdge "review" (some "high")]) "decide" Sample.risky "/risk"
    (Sample.controlEdge "review" (some "high")) (by decide) (by rw [Sample.routedText_risky]; decide)
  revert hroute
  decide

end RuntimeLanggraph

end HarnessFramework
