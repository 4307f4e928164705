import HarnessFramework.RuntimeLanggraph.NodeInput

/-!
# Running the graph of a plan

What the nodes that `lowerHarnessPlan` of `packages/runtime-langgraph/src/index.ts` adds to the graph
do, and how LangGraph runs them: in a superstep every scheduled node reads the state before it, the
updates are merged, and routers see the state with the update of their own node. A node that throws
fails the run, unless it is a source of an allSettled join: then what it threw becomes its settlement.

What capabilities, case writes and the journal answer is given for each superstep and node, and so is
how values are transformed, templates rendered and conditions evaluated. A run may start from any
state: that of an earlier attempt, merged with the new input.

## Main definitions

* `Runtime` — what nodes rely on
* `outcome` — what a node returns or throws
* `execution` — what is scheduled, and the state, before a superstep
* `lastOutcome` — the last outcome of a node before a superstep

## Main results

* `execution_scheduled` — an execution schedules what the graph schedules
* `execution_settlements` — the settlement of a source is its last outcome
* `execution_failure` — no source of an allSettled join fails the run
-/

namespace HarnessFramework

namespace RuntimeLanggraph

open RuntimeCore Checks

/-! ## Nodes -/

/-- What nodes rely on, in each superstep. -/
structure Runtime where
  /-- The journal, told that a node started. -/
  started : ℕ → String → Except String Unit
  /-- The journal, told that a node completed. -/
  completed : ℕ → String → Except String Unit
  /-- The journal, told that a node failed. -/
  failed : ℕ → String → Except String Unit
  /-- `invokeCapability`: the output of a result that succeeded. -/
  invokeCapability : ℕ → String → JsValue → Except String JsValue
  /-- `executeCaseWrites`, on root input, node input, output and values. -/
  executeCaseWrites : ℕ → String → JsValue → JsValue → JsValue → List (String × JsValue) →
    Except String Unit
  transformValue : List (String × Json) → JsValue → Except String JsValue
  aggregateValue : List (String × Json) → JsValue → Except String JsValue
  renderTemplate : String → List (String × JsValue) → String
  evaluateCondition : Option String → List (String × JsValue) → Bool

/-- `{ ...state, ...state.values }`. -/
def HarnessState.scope (state : HarnessState) : List (String × JsValue) :=
  Members.spread [("input", state.input), ("values", .obj state.values), ("output", state.output),
    ("settlements", .obj (state.settlements.map fun entry => (entry.1, entry.2.toJs)))] state.values

/-- What a node writes to the state, under its id. -/
structure Update where
  nodeId : String
  value : Option JsValue
  settlement : Option SettledResult
  output : Option JsValue

/-- The update, merged into the state by the reducers. -/
def HarnessState.apply (state : HarnessState) (update : Update) : HarnessState where
  input := state.input
  values := match update.value with
    | some value => Members.set update.nodeId value state.values
    | none => state.values
  settlements := match update.settlement with
    | some result => Members.set update.nodeId result state.settlements
    | none => state.settlements
  output := update.output.getD state.output

/-- The state a thread resumes in: what was saved, with the input of the request. -/
def resumed (saved : HarnessState) (input : JsValue) : HarnessState := { saved with input }

/-- What fails a run. -/
inductive RunFailure
  | node (nodeId code : String)
  /-- Two nodes write the output in one superstep. -/
  | concurrentOutput
deriving DecidableEq

/-- What is scheduled, and the state before it runs. -/
structure RunState where
  scheduled : Superstep String
  state : HarnessState

section

variable (runtime : Runtime) (plan : GraphPlan)

/-- `executeObservedNode`. -/
def executeObservedNode {α : Type} (k : ℕ) (nodeId : String) (input : JsValue)
    (execute : Except String α) : Except String α := do
  let _ ← digested input
  runtime.started k nodeId
  match execute >>= fun result => (runtime.completed k nodeId).map fun _ => result with
  | .ok result => .ok result
  | .error code => runtime.failed k nodeId >>= fun _ => .error code

/-- What a capability is asked with. -/
def enriched (renderTemplate : String → List (String × JsValue) → String) (node : PlanNode)
    (state : HarnessState) (input : JsValue) : JsValue :=
  match node.prompt.filter (· ≠ "") with
  | some prompt => .obj [("input", input), ("prompt", .str (renderTemplate prompt state.scope))]
  | none => input

/-- The value of a node. -/
def nodeValue (k : ℕ) (node : PlanNode) (state : HarnessState) (input : JsValue) :
    Except String JsValue :=
  match node.kind with
  | .input => .ok state.input
  | .output | .condition | .join => .ok input
  | .agent | .tool | .evaluate =>
    runtime.invokeCapability k node.id (enriched runtime.renderTemplate node state input)
  | .transform => runtime.transformValue node.config input
  | .aggregator => runtime.aggregateValue node.config input

/-- What a node returns or throws. -/
def outcome (k : ℕ) (node : PlanNode) (state : HarnessState) : Except String JsValue :=
  let input := nodeInput plan node.id state
  executeObservedNode runtime k node.id input do
    let value ← nodeValue runtime k node state input
    runtime.executeCaseWrites k node.id state.input input value state.values
    return value

/-- The sources of allSettled joins. -/
def GraphPlan.settledSourceIds : List String := plan.workflow.settledSourceIds

/-- The function that is added to the graph for a node. -/
def runNode (k : ℕ) (node : PlanNode) (state : HarnessState) : Except String Update :=
  match outcome runtime plan k node state with
  | .ok value => .ok {
      nodeId := node.id
      value := some value
      settlement := if node.id ∈ plan.settledSourceIds then some (.fulfilled value) else none
      output := if node.kind = .output then some value else none }
  | .error code =>
    if node.id ∈ plan.settledSourceIds then .ok ⟨node.id, none, some (.rejected code code), none⟩
    else .error code

/-- `routeFor`: `none` is the end of the graph. -/
def routeFor (nodeId : String) (state : HarnessState) : Option String :=
  let expression : Option String := match (plan.find nodeId).bind (lastMember "expression" ·.config) with
    | some (.str text) => if text = "" then none else some text
    | _ => none
  let routedValue : JsValue := match expression with
    | some text => getPath (.obj state.scope) (some text)
    | none => .undefined
  ((plan.edges.filter fun edge => edge.source = nodeId ∧ edge.kind = .control).find? fun edge =>
    edge.condition = some (jsText routedValue) ∨
      runtime.evaluateCondition edge.condition state.scope).map (·.target)

/-! ## Supersteps -/

variable (g : StateGraph String)

/-- The nodes that run in a superstep. -/
def GraphPlan.running (r : RunState) : List PlanNode :=
  plan.nodes.filter fun node => node.id ∈ r.scheduled.running

/-- What the router of a node picks. It sees what its node wrote. -/
def picked (k : ℕ) (state : HarnessState) (nodeId : String) : Option String := do
  let node ← plan.find nodeId
  let update ← (runNode runtime plan k node state).toOption
  routeFor runtime plan nodeId (state.apply update)

/-- One superstep. -/
def advance (k : ℕ) (r : RunState) : Except RunFailure RunState := do
  let updates ← (plan.running r).mapM fun node =>
    (runNode runtime plan k node r.state).mapError (.node node.id)
  ensure ((updates.filter (·.output.isSome)).length ≤ 1) .concurrentOutput
  return ⟨g.next (picked runtime plan k r.state) r.scheduled, updates.foldl HarnessState.apply r.state⟩

variable (initial : HarnessState)

/-- What is scheduled before the superstep `k` of a run from a state, and the state then. -/
def execution : ℕ → Except RunFailure RunState
  | 0 => .ok ⟨g.first, initial⟩
  | k + 1 => execution k >>= advance runtime plan g k

/-- The last outcome of a node before the superstep `k`. -/
def lastOutcome (nodeId : String) : ℕ → Option (Except String JsValue)
  | 0 => none
  | k + 1 =>
    match execution runtime plan g initial k with
    | .ok r =>
      match (plan.running r).find? (·.id = nodeId) with
      | some node => some (outcome runtime plan k node r.state)
      | none => lastOutcome nodeId k
    | .error _ => lastOutcome nodeId k

end

/-- The settlement that an outcome becomes. -/
def report : Except String JsValue → SettledResult
  | .ok value => .fulfilled value
  | .error code => .rejected code code

/-! ## What nodes write -/

section

variable {runtime : Runtime} {plan : GraphPlan} {k : ℕ} {node : PlanNode} {state : HarnessState}

theorem runNode_nodeId {update : Update} (h : runNode runtime plan k node state = .ok update) :
    update.nodeId = node.id := by
  rw [runNode] at h
  split at h
  · obtain rfl := Except.ok.inj h; rfl
  · split at h
    · obtain rfl := Except.ok.inj h; rfl
    · cases h

/-- **A source of an allSettled join settles.** -/
theorem runNode_settles (runtime : Runtime) (k : ℕ) (state : HarnessState)
    (h : node.id ∈ plan.settledSourceIds) :
    ∃ update, runNode runtime plan k node state = .ok update ∧
      update.settlement = some (report (outcome runtime plan k node state)) := by
  rw [runNode]
  split
  · next value houtcome => exact ⟨_, rfl, by rw [if_pos h, houtcome]; rfl⟩
  · next code houtcome => exact ⟨_, by rw [if_pos h], by rw [houtcome]; rfl⟩

theorem lookup_settlements_apply (update : Update) (nodeId : String) :
    Members.lookup nodeId (state.apply update).settlements =
      if update.nodeId = nodeId then update.settlement.or (Members.lookup nodeId state.settlements)
      else Members.lookup nodeId state.settlements := by
  rw [HarnessState.apply]
  cases update.settlement with
  | none => simp
  | some result => simp [Members.lookup_set]

theorem lookup_values_apply (update : Update) (nodeId : String) :
    Members.lookup nodeId (state.apply update).values =
      if update.nodeId = nodeId then update.value.or (Members.lookup nodeId state.values)
      else Members.lookup nodeId state.values := by
  rw [HarnessState.apply]
  cases update.value with
  | none => simp
  | some value => simp [Members.lookup_set]

/-- Updates of other nodes leave a node's value and settlement. -/
theorem lookup_foldl_of_ne {updates : List Update} {nodeId : String}
    (h : nodeId ∉ updates.map (·.nodeId)) :
    Members.lookup nodeId (updates.foldl HarnessState.apply state).settlements
        = Members.lookup nodeId state.settlements ∧
      Members.lookup nodeId (updates.foldl HarnessState.apply state).values
        = Members.lookup nodeId state.values := by
  induction updates generalizing state with
  | nil => exact ⟨rfl, rfl⟩
  | cons update updates ih =>
    rw [List.map_cons, List.mem_cons, not_or] at h
    have hne : update.nodeId ≠ nodeId := Ne.symm h.1
    obtain ⟨hsettlements, hvalues⟩ := @ih (state.apply update) h.2
    rw [lookup_settlements_apply, if_neg hne] at hsettlements
    rw [lookup_values_apply, if_neg hne] at hvalues
    exact ⟨hsettlements, hvalues⟩

/-- The update of a node settles it. -/
theorem lookup_foldl_of_mem (state : HarnessState) {updates : List Update} {update : Update}
    {result : SettledResult}
    (hnodup : (updates.map (·.nodeId)).Nodup) (h : update ∈ updates)
    (hresult : update.settlement = some result) :
    Members.lookup update.nodeId (updates.foldl HarnessState.apply state).settlements
      = some result := by
  obtain ⟨before, after, rfl⟩ := List.append_of_mem h
  have hafter : update.nodeId ∉ after.map (·.nodeId) := by
    rw [List.map_append, List.map_cons, List.nodup_append, List.nodup_cons] at hnodup
    exact hnodup.2.1.1
  rw [List.foldl_append, List.foldl_cons, (lookup_foldl_of_ne hafter).1, lookup_settlements_apply,
    if_pos rfl, hresult, Option.some_or]

end

/-! ## One superstep -/

section

variable {runtime : Runtime} {plan : GraphPlan} {g : StateGraph String} {k : ℕ} {r r' : RunState}

theorem mapError_eq_ok {ε ε' α : Type} {x : Except ε α} {f : ε → ε'} {a : α} :
    x.mapError f = .ok a ↔ x = .ok a := by
  cases x <;> simp [Except.mapError]

/-- What a superstep that fails nowhere consists of. -/
theorem advance_ok (h : advance runtime plan g k r = .ok r') :
    r'.scheduled = g.next (picked runtime plan k r.state) r.scheduled ∧
      ∃ updates, List.Forall₂ (fun node update => runNode runtime plan k node r.state = .ok update)
          (plan.running r) updates ∧
        r'.state = updates.foldl HarnessState.apply r.state := by
  rw [advance, bind_eq_ok] at h
  obtain ⟨updates, hupdates, h⟩ := h
  rw [ensure_bind_eq_ok, pure_eq_ok] at h
  obtain ⟨-, rfl⟩ := h
  rw [mapM_eq_ok] at hupdates
  exact ⟨rfl, updates, hupdates.imp fun _ _ hrun => mapError_eq_ok.mp hrun, rfl⟩

theorem map_nodeId {nodes : List PlanNode} {updates : List Update} {state : HarnessState}
    (h : List.Forall₂ (fun node update => runNode runtime plan k node state = .ok update) nodes updates) :
    updates.map (·.nodeId) = nodes.map (·.id) := by
  induction h with
  | nil => rfl
  | cons hrun _ ih => rw [List.map_cons, List.map_cons, runNode_nodeId hrun, ih]

/-- **A superstep settles the sources that run in it, and leaves the others.** -/
theorem advance_settlement (hids : (plan.nodes.map (·.id)).Nodup)
    (h : advance runtime plan g k r = .ok r') {nodeId : String}
    (hsettled : nodeId ∈ plan.settledSourceIds) :
    match (plan.running r).find? (·.id = nodeId) with
    | some node => Members.lookup nodeId r'.state.settlements
        = some (report (outcome runtime plan k node r.state))
    | none => Members.lookup nodeId r'.state.settlements = Members.lookup nodeId r.state.settlements ∧
        Members.lookup nodeId r'.state.values = Members.lookup nodeId r.state.values := by
  obtain ⟨-, updates, hupdates, hstate⟩ := advance_ok h
  have hmap := map_nodeId hupdates
  split
  · next node hfind =>
    have hmem : node ∈ plan.running r := List.mem_of_find?_eq_some hfind
    have hid : node.id = nodeId := by simpa using List.find?_some hfind
    obtain ⟨update, hupdate, hrun⟩ : ∃ update ∈ updates,
        runNode runtime plan k node r.state = .ok update := by
      obtain ⟨i, hi, hget⟩ := List.getElem_of_mem hmem
      have hlength : i < updates.length := hupdates.length_eq ▸ hi
      have hrun := hupdates.get hi hlength
      rw [List.get_eq_getElem, hget] at hrun
      exact ⟨updates[i], List.getElem_mem hlength, hrun⟩
    obtain ⟨update', hrun', hresult⟩ := runNode_settles runtime k r.state (hid ▸ hsettled)
    obtain rfl : update = update' := Except.ok.inj (hrun.symm.trans hrun')
    have hnodup : (updates.map (·.nodeId)).Nodup := by
      rw [hmap]
      exact hids.sublist (List.filter_sublist.map _)
    have hlookup := lookup_foldl_of_mem r.state hnodup hupdate hresult
    rwa [runNode_nodeId hrun, hid, ← hstate] at hlookup
  · next hfind =>
    rw [hstate]
    refine lookup_foldl_of_ne ?_
    rw [hmap, List.mem_map]
    rintro ⟨node, hmem, hid⟩
    have := List.find?_eq_none.mp hfind node hmem
    simp [hid] at this

/-- A superstep fails at a node that throws. -/
theorem mapM_runNode_error {nodes : List PlanNode} {state : HarnessState} {failure : RunFailure}
    (h : nodes.mapM (fun node => (runNode runtime plan k node state).mapError (.node node.id))
      = .error failure) :
    ∃ node code, failure = .node node.id code ∧ runNode runtime plan k node state = .error code := by
  induction nodes with
  | nil => cases h
  | cons node nodes ih =>
    rw [List.mapM_cons] at h
    cases hrun : runNode runtime plan k node state with
    | error code =>
      rw [hrun] at h
      exact ⟨node, code, (Except.error.inj h).symm, hrun⟩
    | ok update =>
      rw [hrun] at h
      cases hrest : nodes.mapM
          (fun node => (runNode runtime plan k node state).mapError (RunFailure.node node.id)) with
      | ok updates =>
        rw [hrest] at h
        cases h
      | error failure' =>
        rw [hrest] at h
        obtain rfl : failure' = failure := Except.error.inj h
        exact ih hrest

theorem advance_failure {nodeId code : String}
    (h : advance runtime plan g k r = .error (.node nodeId code)) : nodeId ∉ plan.settledSourceIds := by
  rw [advance] at h
  cases hupdates : (plan.running r).mapM
      (fun node => (runNode runtime plan k node r.state).mapError (RunFailure.node node.id)) with
  | error failure =>
    rw [hupdates] at h
    obtain rfl : failure = .node nodeId code := Except.error.inj h
    obtain ⟨node, code', hnode, hrun⟩ := mapM_runNode_error hupdates
    obtain ⟨rfl, rfl⟩ := RunFailure.node.inj hnode
    intro hsettled
    obtain ⟨update, hok, -⟩ := runNode_settles runtime k r.state hsettled
    rw [hok] at hrun
    cases hrun
  | ok updates =>
    rw [hupdates] at h
    change (ensure _ _ >>= fun _ => _) = _ at h
    rw [ensure] at h
    split at h <;> cases h

end

/-! ## Executions -/

section

variable {runtime : Runtime} {plan : GraphPlan} {g : StateGraph String} {initial : HarnessState}
  {k : ℕ} {r : RunState}

theorem execution_succ {r' : RunState} (h : execution runtime plan g initial (k + 1) = .ok r') :
    ∃ r, execution runtime plan g initial k = .ok r ∧ advance runtime plan g k r = .ok r' :=
  bind_eq_ok.mp h

/-- **An execution schedules what the graph schedules**, when its routers pick what they pick. -/
theorem execution_scheduled (h : execution runtime plan g initial k = .ok r)
    {route : ℕ → String → Option String}
    (hroute : ∀ j r, execution runtime plan g initial j = .ok r →
      route j = picked runtime plan j r.state) :
    r.scheduled = g.superstep route k := by
  induction k generalizing r with
  | zero => obtain rfl := Except.ok.inj h; rfl
  | succ k ih =>
    obtain ⟨r₀, hr₀, hadvance⟩ := execution_succ h
    rw [(advance_ok hadvance).1, StateGraph.superstep_succ, ← ih hr₀, hroute k r₀ hr₀]

theorem lastOutcome_succ (h : execution runtime plan g initial k = .ok r) (nodeId : String) :
    lastOutcome runtime plan g initial nodeId (k + 1) =
      match (plan.running r).find? (·.id = nodeId) with
      | some node => some (outcome runtime plan k node r.state)
      | none => lastOutcome runtime plan g initial nodeId k := by
  rw [lastOutcome, h]

/-- A run keeps its input. -/
theorem execution_input (h : execution runtime plan g initial k = .ok r) : r.state.input = initial.input := by
  have happly : ∀ (updates : List Update) (state : HarnessState),
      (updates.foldl HarnessState.apply state).input = state.input := by
    intro updates
    induction updates with
    | nil => exact fun _ => rfl
    | cons update updates ih => exact fun state => ih (state.apply update)
  induction k generalizing r with
  | zero => obtain rfl := Except.ok.inj h; rfl
  | succ k ih =>
    obtain ⟨r₀, hr₀, hadvance⟩ := execution_succ h
    obtain ⟨-, updates, -, hstate⟩ := advance_ok hadvance
    rw [hstate, happly, ih hr₀]

/-- Values are kept under distinct ids. -/
theorem execution_values (hinitial : (Members.keys initial.values).Nodup)
    (h : execution runtime plan g initial k = .ok r) : (Members.keys r.state.values).Nodup := by
  have happly : ∀ (updates : List Update) (state : HarnessState), (Members.keys state.values).Nodup →
      (Members.keys (updates.foldl HarnessState.apply state).values).Nodup := by
    intro updates
    induction updates with
    | nil => exact fun _ hstate => hstate
    | cons update updates ih =>
      intro state hstate
      refine ih (state.apply update) ?_
      rw [HarnessState.apply]
      cases update.value with
      | none => exact hstate
      | some value => exact Members.nodup_keys_set hstate
  induction k generalizing r with
  | zero => obtain rfl := Except.ok.inj h; exact hinitial
  | succ k ih =>
    obtain ⟨r₀, hr₀, hadvance⟩ := execution_succ h
    obtain ⟨-, updates, -, hstate⟩ := advance_ok hadvance
    rw [hstate]
    exact happly updates r₀.state (ih hr₀)

/-- **The settlement of a source is its last outcome**, and what it was where the source has not
run. -/
theorem execution_settlements (hids : (plan.nodes.map (·.id)).Nodup)
    (h : execution runtime plan g initial k = .ok r) {nodeId : String}
    (hsettled : nodeId ∈ plan.settledSourceIds) :
    match lastOutcome runtime plan g initial nodeId k with
    | some result => Members.lookup nodeId r.state.settlements = some (report result)
    | none => Members.lookup nodeId r.state.settlements = Members.lookup nodeId initial.settlements ∧
        Members.lookup nodeId r.state.values = Members.lookup nodeId initial.values := by
  induction k generalizing r with
  | zero => obtain rfl := Except.ok.inj h; exact ⟨rfl, rfl⟩
  | succ k ih =>
    obtain ⟨r₀, hr₀, hadvance⟩ := execution_succ h
    have hstep := advance_settlement hids hadvance hsettled
    rw [lastOutcome_succ hr₀]
    cases hfind : (plan.running r₀).find? (·.id = nodeId) with
    | some node =>
      rw [hfind] at hstep
      exact hstep
    | none =>
      rw [hfind] at hstep
      rw [hstep.1, hstep.2]
      exact ih hr₀

/-- **No source of an allSettled join fails the run.** -/
theorem execution_failure {nodeId code : String}
    (h : execution runtime plan g initial k = .error (.node nodeId code)) :
    nodeId ∉ plan.settledSourceIds := by
  induction k with
  | zero => cases h
  | succ k ih =>
    rw [execution] at h
    cases hr : execution runtime plan g initial k with
    | error failure =>
      rw [hr] at h
      obtain rfl : failure = .node nodeId code := Except.error.inj h
      exact ih hr
    | ok r =>
      rw [hr] at h
      exact advance_failure h

end

namespace Sample

/-- Nothing throws; capabilities, transformations and aggregations return their input. -/
def runtime : Runtime where
  started _ _ := .ok ()
  completed _ _ := .ok ()
  failed _ _ := .ok ()
  invokeCapability _ _ input := .ok input
  executeCaseWrites _ _ _ _ _ _ := .ok ()
  transformValue _ input := .ok input
  aggregateValue _ input := .ok input
  renderTemplate template _ := template
  evaluateCondition _ _ := true

end Sample

end RuntimeLanggraph

end HarnessFramework
