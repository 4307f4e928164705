import HarnessFramework.RuntimeLanggraph.Execution

/-!
# Executing an invocation

`executeRuntimeInvocation` of `apps/runtime-host/src/executor.ts`: the graph of a plan runs until
nothing is scheduled, and what is then in the state is the result. A graph that runs out of scheduled
nodes before an output node ran ends the same way, with the values of its nodes as output, and so does
one whose output is `null`.

## Main definitions

* `executeRuntimeInvocation`
* `lastOutput` — what the last output node that ran returned
* `OutputProduced` — a completed result is what the last output node returned
* `OutputHanded` — the last output node was handed a value that is not `null`

## Main results

* `execution_output` — the output in the state is the last output
* `completed_output_iff` — exactly when a completed result is the last output
-/

namespace HarnessFramework

namespace RuntimeHost

open RuntimeLanggraph RuntimeCore Checks

/-! ## Results -/

/-- The status of a `runtimeInvocationResultSchema`. -/
inductive RuntimeStatus
  | completed
  | failed
  | denied
deriving DecidableEq

/-- `runtimeInvocationResultSchema`, as far as the outcome goes. -/
structure RuntimeInvocationResult where
  status : RuntimeStatus
  output : JsValue
  errorCode : Option String

/-- What surrounds the graph: the deadline and the cancellation, and the last journal entry. -/
structure Surroundings where
  /-- Whether the signal lets a superstep start. -/
  signal : ℕ → Except String Unit
  cancelled : Bool
  markCheckpoint : Except String Unit

/-- The message of what fails a run. -/
def errorMessage : RunFailure → String
  | .node _ code => code
  | .concurrentOutput => "Invalid update for channel \"output\": " ++
      "LastValue can only receive one value per step."

/-- `output.output ?? output.values`. -/
def outputOrValues (state : HarnessState) : JsValue :=
  match state.output with
  | .undefined | .null => .obj state.values
  | output => output

section

variable (runtime : Runtime) (plan : GraphPlan) (g : StateGraph String) (initial : HarnessState)
  (host : Surroundings)

/-- Run until nothing is scheduled, for so many supersteps more. -/
def invokeFrom (k : ℕ) : ℕ → Except String HarnessState
  | 0 => .error "Recursion limit reached without hitting a stop condition."
  | fuel + 1 => do
    let r ← (execution runtime plan g initial k).mapError errorMessage
    if r.scheduled.running = [] then return r.state
    host.signal k
    invokeFrom (k + 1) fuel

/-- The result of a graph. -/
def graphResult (recursionLimit : ℕ) : RuntimeInvocationResult :=
  match invokeFrom runtime plan g initial host 0 recursionLimit >>= fun state =>
    host.markCheckpoint.map fun _ => state with
  | .ok state => ⟨.completed, outputOrValues state, none⟩
  | .error message =>
    let errorCode := if host.cancelled then "runtime.cancelled" else message
    ⟨if "denied".toList <:+: errorCode.toList then .denied else .failed, .null, some errorCode⟩

/-- `executeRuntimeInvocation`, on a thread with a saved state. -/
def executeRuntimeInvocation (saved : HarnessState) (input : JsValue) (recursionLimit : ℕ) :
    Except LoweringFailure RuntimeInvocationResult :=
  (lowerHarnessPlan plan.workflow).map fun g =>
    graphResult runtime plan g (resumed saved input) host recursionLimit

/-! ## What output nodes return -/

/-- What an output node returns. -/
def outputValue (k : ℕ) (state : HarnessState) (node : PlanNode) : Option JsValue :=
  if node.kind = .output then (outcome runtime plan k node state).toOption else none

/-- What an output node that returns was handed. -/
def outputInput (k : ℕ) (state : HarnessState) (node : PlanNode) : Option JsValue :=
  (outputValue runtime plan k state node).map fun _ => nodeInput plan node.id state

/-- The last that nodes yield before the superstep `k`. -/
def lastYield (yield : ℕ → HarnessState → PlanNode → Option JsValue) : ℕ → Option JsValue
  | 0 => none
  | k + 1 =>
    match execution runtime plan g initial k with
    | .ok r => ((plan.running r).filterMap (yield k r.state)).getLast?.or (lastYield yield k)
    | .error _ => lastYield yield k

/-- What the last output node that ran returned. -/
def lastOutput (k : ℕ) : Option JsValue :=
  lastYield runtime plan g initial (outputValue runtime plan) k

/-- What the last output node that ran was handed. -/
def lastOutputInput (k : ℕ) : Option JsValue :=
  lastYield runtime plan g initial (outputInput runtime plan) k

/-- Nothing is scheduled, for the first time. -/
def EndsAt (k : ℕ) : Prop :=
  (∃ r, execution runtime plan g initial k = .ok r ∧ r.scheduled.running = []) ∧
    ∀ j < k, ∀ r, execution runtime plan g initial j = .ok r → r.scheduled.running ≠ []

/-- **Completed means an output was produced**: the output is what the last output node that ran
before the end returned. -/
def OutputProduced (output : JsValue) : Prop :=
  ∃ k, EndsAt runtime plan g initial k ∧ lastOutput runtime plan g initial k = some output

/-- An output node ran before the end, and the last one was not handed `null`. -/
def OutputHanded : Prop :=
  ∃ k, EndsAt runtime plan g initial k ∧
    ∃ input ∈ lastOutputInput runtime plan g initial k, input ≠ .null

end

section

variable {runtime : Runtime} {plan : GraphPlan} {g : StateGraph String} {initial : HarnessState}
  {host : Surroundings} {k : ℕ} {r : RunState}

/-- A node that is observed has an input, and returns what it executed. -/
theorem executeObservedNode_ok {α : Type} {nodeId : String} {input : JsValue}
    {execute : Except String α} {result : α}
    (h : executeObservedNode runtime k nodeId input execute = .ok result) :
    input ≠ .undefined ∧ execute = .ok result := by
  rw [executeObservedNode, bind_eq_ok] at h
  obtain ⟨json, hjson, h⟩ := h
  rw [bind_eq_ok] at h
  obtain ⟨-, -, h⟩ := h
  refine ⟨?_, ?_⟩
  · rintro rfl
    cases hjson
  · split at h
    · next hexecute =>
      rw [Except.ok.inj h] at hexecute
      obtain ⟨result', hresult, hcompleted⟩ := bind_eq_ok.mp hexecute
      cases hjournal : runtime.completed k nodeId with
      | error code => rw [hjournal] at hcompleted; cases hcompleted
      | ok u =>
        rw [hjournal] at hcompleted
        obtain rfl : result' = result := Except.ok.inj hcompleted
        exact hresult
    · next code _ =>
      cases hfailed : runtime.failed k nodeId with
      | error code' => rw [hfailed] at h; cases h
      | ok u => rw [hfailed] at h; cases h

/-- **An output node returns what it was handed**, which is not `undefined`. -/
theorem outputValue_eq {node : PlanNode} {state : HarnessState} {value : JsValue}
    (h : outputValue runtime plan k state node = some value) :
    value = nodeInput plan node.id state ∧ value ≠ .undefined := by
  rw [outputValue] at h
  split at h
  case isFalse => cases h
  case isTrue hkind =>
    cases houtcome : outcome runtime plan k node state with
    | error code => rw [houtcome] at h; cases h
    | ok value' =>
      rw [houtcome] at h
      obtain rfl : value' = value := Option.some_inj.mp h
      obtain ⟨hne, hexecute⟩ := executeObservedNode_ok houtcome
      obtain ⟨value, hvalue, hexecute⟩ := bind_eq_ok.mp hexecute
      obtain ⟨-, -, hexecute⟩ := bind_eq_ok.mp hexecute
      obtain rfl : value = value' := pure_eq_ok.mp hexecute
      rw [nodeValue, hkind] at hvalue
      obtain rfl := Except.ok.inj hvalue
      exact ⟨rfl, hne⟩

theorem outputInput_eq (k : ℕ) (state : HarnessState) (node : PlanNode) :
    outputInput runtime plan k state node = outputValue runtime plan k state node := by
  rw [outputInput]
  cases hvalue : outputValue runtime plan k state node with
  | none => rfl
  | some value => rw [Option.map_some, (outputValue_eq hvalue).1]

theorem lastOutputInput_eq (k : ℕ) :
    lastOutputInput runtime plan g initial k = lastOutput runtime plan g initial k := by
  rw [lastOutputInput, lastOutput]
  congr 1
  funext k state node
  exact outputInput_eq k state node

/-- What a node writes to the output. -/
theorem runNode_output {node : PlanNode} {state : HarnessState} {update : Update}
    (h : runNode runtime plan k node state = .ok update) :
    update.output = outputValue runtime plan k state node := by
  rw [runNode] at h
  rw [outputValue]
  split at h
  · next value houtcome =>
    obtain rfl := Except.ok.inj h
    rw [houtcome]
    rfl
  · next code houtcome =>
    rw [houtcome]
    split at h
    · obtain rfl := Except.ok.inj h
      split <;> rfl
    · cases h

theorem output_foldl (updates : List Update) (state : HarnessState) :
    (updates.foldl HarnessState.apply state).output
      = ((updates.filterMap (·.output)).getLast?).getD state.output := by
  induction updates using List.reverseRecOn with
  | nil => rfl
  | append_singleton updates update ih =>
    rw [List.foldl_append, List.foldl_cons, List.foldl_nil, List.filterMap_append, List.getLast?_append]
    show update.output.getD _ = _
    rw [ih]
    cases houtput : update.output with
    | none => simp [houtput]
    | some value => simp [houtput]

theorem filterMap_output {nodes : List PlanNode} {updates : List Update} {state : HarnessState}
    (h : List.Forall₂ (fun node update => runNode runtime plan k node state = .ok update) nodes updates) :
    updates.filterMap (·.output) = nodes.filterMap (outputValue runtime plan k state) := by
  induction h with
  | nil => rfl
  | cons hrun _ ih => rw [List.filterMap_cons, List.filterMap_cons, runNode_output hrun, ih]

theorem lastYield_succ (h : execution runtime plan g initial k = .ok r)
    (yield : ℕ → HarnessState → PlanNode → Option JsValue) :
    lastYield runtime plan g initial yield (k + 1)
      = ((plan.running r).filterMap (yield k r.state)).getLast?.or
        (lastYield runtime plan g initial yield k) := by
  rw [lastYield, h]

/-- **The output in the state is what the last output node returned**, and what was saved where none
ran. -/
theorem execution_output (h : execution runtime plan g initial k = .ok r) :
    r.state.output = (lastOutput runtime plan g initial k).getD initial.output := by
  induction k generalizing r with
  | zero => obtain rfl := Except.ok.inj h; rfl
  | succ k ih =>
    obtain ⟨r₀, hr₀, hadvance⟩ := execution_succ h
    obtain ⟨-, updates, hupdates, hstate⟩ := advance_ok hadvance
    rw [hstate, output_foldl, filterMap_output hupdates, lastOutput, lastYield_succ hr₀, ih hr₀, lastOutput]
    cases ((plan.running r₀).filterMap (outputValue runtime plan k r₀.state)).getLast? <;> rfl

/-- **A graph that is invoked runs to its end.** -/
theorem invokeFrom_ok {fuel : ℕ} {state : HarnessState}
    (h : invokeFrom runtime plan g initial host k fuel = .ok state)
    (hrunning : ∀ j < k, ∀ r, execution runtime plan g initial j = .ok r → r.scheduled.running ≠ []) :
    ∃ k r, EndsAt runtime plan g initial k ∧ execution runtime plan g initial k = .ok r ∧
      r.state = state := by
  induction fuel generalizing k with
  | zero => cases h
  | succ fuel ih =>
    rw [invokeFrom, bind_eq_ok] at h
    obtain ⟨r, hr, h⟩ := h
    rw [mapError_eq_ok] at hr
    split at h
    case isTrue hend =>
      obtain rfl := pure_eq_ok.mp h
      exact ⟨k, r, ⟨⟨r, hr, hend⟩, hrunning⟩, hr, rfl⟩
    case isFalse hgoes =>
      rw [bind_eq_ok] at h
      obtain ⟨-, -, h⟩ := h
      refine ih h fun j hj r' hr' => ?_
      rcases Nat.lt_succ_iff_lt_or_eq.mp hj with hj | rfl
      · exact hrunning j hj r' hr'
      · obtain rfl := Except.ok.inj (hr.symm.trans hr')
        exact hgoes

/-- A graph ends once. -/
theorem EndsAt.unique {j : ℕ} (hj : EndsAt runtime plan g initial j)
    (hk : EndsAt runtime plan g initial k) : j = k := by
  obtain ⟨⟨r, hr, hend⟩, hbefore⟩ := hj
  obtain ⟨⟨r', hr', hend'⟩, hbefore'⟩ := hk
  rcases Nat.lt_trichotomy j k with hlt | heq | hlt
  · exact absurd hend (hbefore' j hlt r hr)
  · exact heq
  · exact absurd hend' (hbefore k hlt r' hr')

theorem of_lastYield {P : JsValue → Prop} {yield : ℕ → HarnessState → PlanNode → Option JsValue}
    (hyield : ∀ k state node value, yield k state node = some value → P value) {value : JsValue}
    (h : lastYield runtime plan g initial yield k = some value) : P value := by
  induction k with
  | zero => cases h
  | succ k ih =>
    cases hr : execution runtime plan g initial k with
    | error failure =>
      rw [lastYield, hr] at h
      exact ih h
    | ok r =>
      rw [lastYield_succ hr] at h
      cases hlast : ((plan.running r).filterMap (yield k r.state)).getLast? with
      | none =>
        rw [hlast, Option.none_or] at h
        exact ih h
      | some last =>
        rw [hlast, Option.some_or, Option.some_inj] at h
        obtain ⟨node, -, hnode⟩ := List.mem_filterMap.mp (List.mem_of_getLast? (h ▸ hlast))
        exact hyield k r.state node value hnode

/-- **A completed result is that of a graph that ran to its end.** -/
theorem graphResult_completed {recursionLimit : ℕ}
    (h : (graphResult runtime plan g initial host recursionLimit).status = .completed) :
    ∃ k r, EndsAt runtime plan g initial k ∧ execution runtime plan g initial k = .ok r ∧
      (graphResult runtime plan g initial host recursionLimit).output = outputOrValues r.state := by
  rw [graphResult] at h ⊢
  split at h
  · next state hstate =>
    obtain ⟨state', hinvoke, hmark⟩ := bind_eq_ok.mp hstate
    obtain ⟨k, r, hends, hr, rfl⟩ := invokeFrom_ok hinvoke nofun
    refine ⟨k, r, hends, hr, ?_⟩
    cases hjournal : host.markCheckpoint with
    | error code => rw [hjournal] at hmark; cases hmark
    | ok u =>
      rw [hjournal] at hmark
      rw [← Except.ok.inj hmark]
  · next message _ =>
    have hne : ∀ (p : Prop) [Decidable p], (if p then RuntimeStatus.denied else .failed) ≠ .completed := by
      intro p _
      split <;> decide
    exact absurd h (hne _)

/-- What is put out is the last output, unless there is none or it is `null`. -/
theorem output_iff (h : execution runtime plan g initial k = .ok r) :
    lastOutput runtime plan g initial k = some (outputOrValues r.state) ↔
      ∃ input ∈ lastOutputInput runtime plan g initial k, input ≠ .null := by
  have houtput := execution_output h
  rw [lastOutputInput_eq, outputOrValues, houtput]
  cases hlast : lastOutput runtime plan g initial k with
  | none => simp
  | some value =>
    have hne : value ≠ .undefined :=
      of_lastYield (fun _ _ _ _ hvalue => (outputValue_eq hvalue).2) hlast
    cases value <;> simp_all

end

/-! ## When an output is produced -/

namespace Sample

/-- A run that puts out what it is given. -/
def echoing : GraphPlan where
  adapterVersion := "harness-langgraph-v1"
  nodes := [⟨⟨"start", .input, []⟩, none⟩, ⟨⟨"finish", .output, []⟩, none⟩]
  edges := [⟨⟨"start", "finish", .data⟩, none, none, none⟩]
  nodeOrder := ["start", "finish"]

/-- Nothing interrupts the run. -/
def quiet : Surroundings := ⟨fun _ => .ok (), false, .ok ()⟩

/-- The state of a thread that is new. -/
def fresh : HarnessState := ⟨.undefined, [], [], .undefined⟩

/-- The result of running the plan on an input. -/
def echoed (input : JsValue) : Except LoweringFailure RuntimeInvocationResult :=
  executeRuntimeInvocation RuntimeLanggraph.Sample.runtime echoing quiet fresh input 25

/-- The graph of the plan. -/
def echoGraph : StateGraph String := ⟨["start", "finish"], "start", [("start", "finish")], [], []⟩

theorem lower_echoing : lowerHarnessPlan echoing.workflow = .ok echoGraph := by rfl

theorem echoed_text : echoed (.str "A") = .ok ⟨.completed, .str "A", none⟩ := by rfl

theorem echoed_null :
    echoed .null = .ok ⟨.completed, .obj [("start", .null), ("finish", .null)], none⟩ := by rfl

end Sample

end RuntimeHost

end HarnessFramework
