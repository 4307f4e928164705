import HarnessFramework.RuntimeLanggraph.Execution

/-!
# What an allSettled join gets

An edge into an allSettled join delivers how its source settled. A settlement holds all that the
source returned, while an edge into another join delivers the part at its source path; and edges with
one key deliver what the last of them does.

## Main definitions

* `AllSettledAgrees` — an execution delivers to allSettled joins what it would deliver to other joins
* `SettlesAlike` — the edge that delivers under an edge's key settled as that edge should
* `PathsSelectAll` — source paths select all that their source returned

## Main results

* `delivers_iff` — when a join gets what it should
* `settlesAlike_iff` — for distinct keys: when source paths select all
* `allSettled_agrees_iff` — the same for executions
-/

namespace HarnessFramework

namespace RuntimeLanggraph

open RuntimeCore

/-! ## What is delivered -/

section

variable (runtime : Runtime) (plan : GraphPlan) (g : StateGraph String) (initial : HarnessState)

/-- The settlement is the one that an edge is to deliver when its source ended with an outcome. -/
def IsSettlementOf (edge : PlanEdge) (result : SettledResult) : Except String JsValue → Prop
  | .ok value => result = .fulfilled (getPath value edge.sourcePath)
  | .error _ => ∃ code message, result = .rejected code message

/-- Each edge into a join whose source ran delivers the value at its source path, or that the source
failed. -/
def Delivers (k : ℕ) (join : String) (state : HarnessState) : Prop :=
  ∀ edge ∈ plan.incoming join, ∀ ended ∈ lastOutcome runtime plan g initial edge.source k,
    ∃ result : SettledResult, (nodeInput plan join state).get (entryKey edge) = result.toJs ∧
      IsSettlementOf edge result ended

/-- **allSettled agrees with all**: each allSettled join gets what its edges are to deliver, and no
source of one fails the run. -/
def AllSettledAgrees : Prop :=
  (∀ k r, execution runtime plan g initial k = .ok r → ∀ join ∈ r.scheduled.running,
    plan.AllSettled join → Delivers runtime plan g initial k join r.state) ∧
  ∀ k nodeId code, execution runtime plan g initial k = .error (.node nodeId code) →
    nodeId ∉ plan.settledSourceIds

/-- How the source of an edge settled before the superstep `k`: by its last outcome, and where it has
not run as it had before. -/
def ended (k : ℕ) (edge : PlanEdge) : SettledResult :=
  match lastOutcome runtime plan g initial edge.source k with
  | some result => report result
  | none => settled initial edge

/-- The last edge into a node under a key. -/
def GraphPlan.lastUnder (nodeId key : String) : Option PlanEdge :=
  (plan.incoming nodeId).reverse.find? (entryKey · = key)

/-- The last edge under the key of an edge whose source ran has settled as that edge is to deliver. -/
def SettlesAlike (k : ℕ) (join : String) : Prop :=
  ∀ edge ∈ plan.incoming join, ∀ result ∈ lastOutcome runtime plan g initial edge.source k,
    ∃ last ∈ plan.lastUnder join (entryKey edge),
      IsSettlementOf edge (ended runtime plan g initial k last) result

/-- What sources of a join returned is what is at the source paths. -/
def PathsSelectAll (k : ℕ) (join : String) : Prop :=
  ∀ edge ∈ plan.incoming join, ∀ value,
    lastOutcome runtime plan g initial edge.source k = some (.ok value) →
      getPath value edge.sourcePath = value

end

section

variable {runtime : Runtime} {plan : GraphPlan} {g : StateGraph String} {initial : HarnessState}
  {k : ℕ} {r : RunState} {join : String}

theorem SettledResult.toJs_injective {a b : SettledResult} (h : a.toJs = b.toJs) : a = b := by
  cases a <;> cases b <;> simp_all [SettledResult.toJs]

/-- The sources of the edges into an allSettled join are sources of allSettled joins. -/
theorem mem_settledSourceIds {edge : PlanEdge} (hjoin : plan.AllSettled join)
    (hedge : edge ∈ plan.incoming join) : edge.source ∈ plan.settledSourceIds := by
  obtain ⟨node, hfind, hsettled⟩ := hjoin
  have hmem : node ∈ plan.nodes := List.mem_of_find?_eq_some hfind
  have hid : node.id = join := by simpa using List.find?_some hfind
  obtain ⟨hedge, htarget⟩ := List.mem_filter.mp hedge
  simp only [decide_eq_true_eq] at htarget
  have hin : join ∈ plan.workflow.allSettledJoins := List.mem_map.mpr
    ⟨node.toWorkflowNode, List.mem_filter.mpr ⟨List.mem_map_of_mem hmem, by simpa using hsettled⟩, hid⟩
  exact List.mem_map.mpr ⟨edge.toWorkflowEdge, List.mem_filter.mpr ⟨List.mem_map_of_mem hedge, by
    simpa [htarget.1] using ⟨hin, htarget.2⟩⟩, rfl⟩

/-- An edge into an allSettled join delivers how its source ended. -/
theorem settled_eq_ended (hids : (plan.nodes.map (·.id)).Nodup)
    (h : execution runtime plan g initial k = .ok r) {edge : PlanEdge}
    (hsettled : edge.source ∈ plan.settledSourceIds) :
    settled r.state edge = ended runtime plan g initial k edge := by
  have hsettlements := execution_settlements hids h hsettled
  rw [ended]
  cases hlast : lastOutcome runtime plan g initial edge.source k with
  | some result =>
    rw [hlast] at hsettlements
    rw [settled, hsettlements, Option.getD_some]
  | none =>
    rw [hlast] at hsettlements
    rw [settled, settled, delivered, delivered, HarnessState.value, HarnessState.value,
      hsettlements.1, hsettlements.2]

/-- Under a key an allSettled join gets how the source of the last edge ended. -/
theorem get_nodeInput (hids : (plan.nodes.map (·.id)).Nodup)
    (h : execution runtime plan g initial k = .ok r) (hjoin : plan.AllSettled join)
    (hedges : plan.incoming join ≠ []) (key : String) :
    (nodeInput plan join r.state).get key =
      ((plan.lastUnder join key).map fun last => (ended runtime plan g initial k last).toJs).getD
        .undefined := by
  obtain ⟨entries, hinput, -, hlookup⟩ := nodeInput_allSettled r.state hedges hjoin
  have hcontribution : ∀ edge ∈ (plan.incoming join).reverse, contribution plan join r.state edge
      = (ended runtime plan g initial k edge).toJs := by
    intro edge hedge
    rw [contribution, if_pos hjoin,
      settled_eq_ended hids h (mem_settledSourceIds hjoin (List.mem_reverse.mp hedge))]
  rw [hinput, JsValue.get_obj, hlookup, ← List.map_reverse, GraphPlan.lastUnder]
  congr 1
  generalize (plan.incoming join).reverse = edges at hcontribution
  induction edges with
  | nil => rfl
  | cons edge edges ih =>
    rw [List.map_cons, Members.lookup_cons, List.find?_cons,
      ih fun edge' hedge' => hcontribution edge' (List.mem_cons_of_mem _ hedge'),
      hcontribution edge List.mem_cons_self]
    by_cases hkey : entryKey edge = key <;> simp [hkey]

/-- **A join gets what it should exactly when the last edges under its keys settled alike.** -/
theorem delivers_iff (hids : (plan.nodes.map (·.id)).Nodup)
    (h : execution runtime plan g initial k = .ok r) (hjoin : plan.AllSettled join) :
    Delivers runtime plan g initial k join r.state ↔ SettlesAlike runtime plan g initial k join := by
  refine forall₂_congr fun edge hedge => forall₂_congr fun result _ => ?_
  have hget := get_nodeInput hids h hjoin (List.ne_nil_of_mem hedge) (entryKey edge)
  obtain ⟨last, hlast⟩ : ∃ last, plan.lastUnder join (entryKey edge) = some last := by
    rw [← Option.isSome_iff_exists, GraphPlan.lastUnder, List.find?_isSome]
    exact ⟨edge, List.mem_reverse.mpr hedge, by simp⟩
  rw [hlast, Option.map_some, Option.getD_some] at hget
  rw [hget, hlast]
  constructor
  · rintro ⟨result', htoJs, hresult⟩
    exact ⟨last, rfl, SettledResult.toJs_injective htoJs ▸ hresult⟩
  · rintro ⟨last', hlast', hresult⟩
    obtain rfl := Option.some_inj.mp hlast'
    exact ⟨_, rfl, hresult⟩

/-- With distinct keys an edge is the last one under its key. -/
theorem lastUnder_eq (hdistinct : DistinctKeys plan join) {edge : PlanEdge}
    (hedge : edge ∈ plan.incoming join) : plan.lastUnder join (entryKey edge) = some edge := by
  obtain ⟨last, hlast⟩ : ∃ last, plan.lastUnder join (entryKey edge) = some last := by
    rw [← Option.isSome_iff_exists, GraphPlan.lastUnder, List.find?_isSome]
    exact ⟨edge, List.mem_reverse.mpr hedge, by simp⟩
  have hmem : last ∈ plan.incoming join := List.mem_reverse.mp (List.mem_of_find?_eq_some hlast)
  have hkey : entryKey last = entryKey edge := by simpa using List.find?_some hlast
  rw [hlast, List.inj_on_of_nodup_map hdistinct hmem hedge hkey]

/-- **With distinct keys edges settle alike exactly when source paths select all.** -/
theorem settlesAlike_iff (hdistinct : DistinctKeys plan join) :
    SettlesAlike runtime plan g initial k join ↔ PathsSelectAll runtime plan g initial k join := by
  refine forall₂_congr fun edge hedge => ?_
  rw [lastUnder_eq hdistinct hedge]
  constructor
  · intro h value hlast
    obtain ⟨last, heq, hresult⟩ := h _ hlast
    obtain rfl := Option.some_inj.mp heq
    rw [ended, hlast] at hresult
    exact (SettledResult.fulfilled.inj hresult).symm
  · intro h result hlast
    refine ⟨edge, rfl, ?_⟩
    rw [ended, Option.mem_def.mp hlast]
    cases result with
    | ok value => exact congrArg SettledResult.fulfilled (h value hlast).symm
    | error code => exact ⟨code, code, rfl⟩

end

/-! ## When allSettled agrees with all -/

namespace Sample

/-- An allSettled join of what the run was given, at a source path. -/
def settling (sourcePath : Option String) : GraphPlan where
  adapterVersion := "harness-langgraph-v1"
  nodes := [⟨⟨"start", .input, []⟩, none⟩,
    ⟨⟨"settled", .join, [("mode", .str "allSettled")]⟩, none⟩]
  edges := [⟨⟨"start", "settled", .data⟩, none, sourcePath, none⟩]
  nodeOrder := ["start", "settled"]

/-- The graph of these plans. -/
def settlingGraph : StateGraph String := ⟨["start", "settled"], "start", [("start", "settled")], [], []⟩

theorem joinMode_settling : joinMode ⟨"settled", .join, [("mode", .str "allSettled")]⟩ = "allSettled" := by
  simp [joinMode, lastMember, Option.filter, Json.toJsString]

theorem settledSourceIds_settling (sourcePath : Option String) :
    (settling sourcePath).settledSourceIds = ["start"] := by
  have hjoins : (settling sourcePath).workflow.allSettledJoins = ["settled"] := by
    simp [WorkflowPlan.allSettledJoins, GraphPlan.workflow, settling, joinMode_settling]
  rw [GraphPlan.settledSourceIds, WorkflowPlan.settledSourceIds, hjoins]
  rfl

theorem lower_settling (sourcePath : Option String) :
    lowerHarnessPlan (settling sourcePath).workflow = .ok settlingGraph := by
  have hmixed : ¬ (settling sourcePath).workflow.HasMixedFanout "start" := by
    simp [WorkflowPlan.HasMixedFanout, WorkflowPlan.allSettledJoins, GraphPlan.workflow, settling,
      joinMode_settling]
  rw [lowerHarnessPlan, ← GraphPlan.settledSourceIds, settledSourceIds_settling,
    List.find?_cons_of_neg (by simpa using hmixed)]
  rfl

/-- A run that is given a name. -/
def named : HarnessState := ⟨.obj [("name", .str "A")], [], [], .undefined⟩

theorem distinctKeys_settling (sourcePath : Option String) (nodeId : String) :
    DistinctKeys (settling sourcePath) nodeId := by
  have hkeys : ((settling sourcePath).edges.map entryKey).Nodup := List.nodup_singleton _
  exact hkeys.sublist (List.filter_sublist.map _)

/-- The first node returns what the run was given. -/
theorem lastOutcome_settling (sourcePath : Option String) :
    lastOutcome runtime (settling sourcePath) settlingGraph named "start" 1
      = some (.ok (.obj [("name", .str "A")])) := by
  rfl

/-- The join runs second. -/
theorem execution_settling (sourcePath : Option String) :
    ∃ r, execution runtime (settling sourcePath) settlingGraph named 1 = .ok r ∧
      "settled" ∈ r.scheduled.running := by
  obtain ⟨update, hupdate, -⟩ := @runNode_settles (settling sourcePath) ⟨⟨"start", .input, []⟩, none⟩
    runtime 0 named (by rw [settledSourceIds_settling]; exact List.mem_singleton_self _)
  have hrunning : (settling sourcePath).running ⟨settlingGraph.first, named⟩
      = [⟨⟨"start", .input, []⟩, none⟩] := by rfl
  have hlength : ([update].filter (·.output.isSome)).length ≤ 1 := List.length_filter_le _ _
  refine ⟨⟨settlingGraph.next (picked runtime (settling sourcePath) 0 named) settlingGraph.first,
    named.apply update⟩, ?_, ?_⟩
  · show advance runtime (settling sourcePath) settlingGraph 0 ⟨settlingGraph.first, named⟩ = _
    rw [advance, hrunning, List.mapM_cons, List.mapM_nil, hupdate]
    show (Checks.ensure _ _ >>= fun _ => _) = _
    rw [Checks.ensure_pos hlength]
    rfl
  · refine List.mem_filter.mpr ⟨by decide, ?_⟩
    rw [decide_eq_true_eq]
    exact .inl ⟨("start", "settled"), by decide, by decide, rfl⟩

end Sample

end RuntimeLanggraph

end HarnessFramework
