import HarnessFramework.HarnessCompiler.Digest
import HarnessFramework.Persistence.RunTable

/-!
# Sources and plans of the authoring plane

What `apps/control-api/src/authoring.ts` makes of authored sources. YAML, the shape of the sources and
the compiler binary are arguments: no route reads more of them than whether they went well. A plan is
the document that `harnessPlanSchema` accepted.

## Main definitions

* `PlanSchema`, `PlanSchema.Plan` — `harnessPlanSchema`, and the plans that it accepted
* `Sources`, `Registry`, `AuthoringTools` — what is authored, and what works on it
* `compileAuthoringDraft`, `evaluateCompiledPlan` — what the routes call

## Main results

* `compileAuthoringDraft_eq_some` — compiled plans have the digest that they name
-/

namespace HarnessFramework

namespace ControlApi

open Persistence HarnessCompiler

/-! ## Plans -/

/-- `harnessPlanSchema.parse`. Defaults are filled in, so that a parsed plan is parsed to itself. -/
structure PlanSchema where
  parse : Json → Except String Json
  parse_parse : ∀ {document plan}, parse document = .ok plan → parse plan = .ok plan

/-- A parsed plan. -/
def PlanSchema.Plan (S : PlanSchema) : Type := { plan : Json // S.parse plan = .ok plan }

/-- The plan of a document. -/
def PlanSchema.read (S : PlanSchema) (document : Json) : Except String S.Plan :=
  match h : S.parse document with
  | .ok plan => .ok ⟨plan, S.parse_parse h⟩
  | .error message => .error message

/-- The text under a key. -/
def text (key : String) (value : Json) : String :=
  match value.get? key with
  | some (.str text) => text
  | _ => ""

/-- The member under keys that lead from one object to the next. -/
def member (value : Json) (keys : List String) : Option Json := keys.foldlM Json.get? value

/-- The elements of an array. -/
def elements : Option Json → List Json
  | some (.arr items) => items
  | _ => []

/-- The number under keys. -/
def number (value : Json) (keys : List String) : ℚ :=
  match member value keys with
  | some (.num x) => x.toRat
  | _ => 0

variable {S : PlanSchema}

/-- `plan.planDigest`. -/
def PlanSchema.Plan.planDigest (plan : S.Plan) : String := text "planDigest" plan.val

theorem PlanSchema.Plan.planDigest_of_verify {sha256 : List Char → String} {plan : S.Plan}
    (h : verifyPlanDigest sha256 plan.val = true) :
    plan.planDigest = stableDigest sha256 (planContent plan.val) := by
  have hdigest : plan.val.get? "planDigest" = some (.str (stableDigest sha256 (planContent plan.val))) :=
    of_decide_eq_true h
  rw [planDigest, text, hdigest]

/-! ## Sources -/

/-- The sources of a draft. -/
structure Sources where
  packageSource : String
  workflowSource : String
deriving DecidableEq

/-- The contracts that are registered for everyone. -/
structure Registry where
  capabilities : List Json
  agents : List Json
  skills : List Json

inductive DiagnosticSeverity
  | error
  | warning
  | info
deriving DecidableEq, Repr

/-- `AuthoringDiagnostic`. -/
structure AuthoringDiagnostic where
  code : String
  severity : DiagnosticSeverity
  path : String
  message : String

/-- What `analyzeAuthoringSources` returns. -/
structure Analysis where
  parsedPackage : Json
  parsedWorkflow : Json
  diagnostics : List AuthoringDiagnostic
  name : String
  domain : String
  version : String

/-- How an agent is attached. -/
structure Attachment where
  nodeId : String
  /-- `insert-after`, or `replace`. -/
  insertAfter : Bool
  newNodeId : Option String

/-- What works on sources outside the database. Each may throw. -/
structure AuthoringTools where
  analyzeAuthoringSources : Sources → Except String Analysis
  defaultAuthoringSources : Sources
  applyAgentToAuthoringSources : Sources → Json → List Json → Attachment → Except String (Sources × String)
  updateNodeCaseWrites : String → String → List Json → Except String String
  /-- The sources with the contracts that they use, if some were missing. -/
  materializeRegisteredContracts : Sources → Registry → Except String (Option Sources)
  /-- What `compileAuthoringDraft` finds wrong before it runs the compiler. -/
  compilerDiagnostics : Sources → Analysis → Registry → List AuthoringDiagnostic
  /-- The plan file that the compiler writes, or what went wrong: an error code and its detail. -/
  harnessc : Sources → Except (String × String) Json

/-! ## Compiling and evaluating -/

/-- A plan, and the sources it was compiled from. -/
structure Compilation (S : PlanSchema) where
  plan : S.Plan
  sources : Sources

section

variable (S) (tools : AuthoringTools) (sha256 : List Char → String)

/-- `compileWithHarnessc`: the plan, or the message and the detail of a `HarnessCompilerError`. -/
def compileWithHarnessc (sources : Sources) : Except (String × String) S.Plan := do
  let document ← tools.harnessc sources
  match S.read document with
  | .error issues => .error ("compiler.plan_contract_violation", issues)
  | .ok plan =>
    if verifyPlanDigest sha256 plan.val then .ok plan
    else .error ("compiler.plan_digest_invalid", plan.planDigest)

/-- The diagnostic of a plan that was emitted. -/
def planEmitted (plan : Json) : AuthoringDiagnostic where
  code := "compiler.plan_emitted"
  severity := .info
  path := "plan"
  message :=
    let compiler := (member plan ["compiler"]).getD .null
    let start (n : ℕ) (value : String) := String.ofList (value.toList.take n)
    "Immutable plan " ++ start 12 (text "planDigest" plan) ++ " emitted by " ++ text "name" compiler ++
      " " ++ text "version" compiler ++ " (lgir-core " ++ start 8 (text "lgirCoreRevision" compiler) ++ ")."

/-- `compileAuthoringDraft`: the plan if there is one, and the diagnostics. -/
def compileAuthoringDraft (sources : Sources) (registry : Registry) :
    Except String (Option (Compilation S) × List AuthoringDiagnostic) := do
  let analysis ← tools.analyzeAuthoringSources sources
  let diagnostics := analysis.diagnostics ++ tools.compilerDiagnostics sources analysis registry
  if diagnostics.any fun item => item.severity = .error then return (none, diagnostics)
  match compileWithHarnessc S tools sha256 sources with
  | .ok plan => return (some ⟨plan, sources⟩, diagnostics ++ [planEmitted plan.val])
  | .error (message, detail) => return (none, diagnostics ++ [⟨message, .error, "plan", detail⟩])

end

/-- **Compiled plans have the digest that they name.** -/
theorem compileAuthoringDraft_eq_some {tools : AuthoringTools} {sha256 : List Char → String}
    {sources : Sources} {registry : Registry} {compilation : Compilation S}
    {diagnostics : List AuthoringDiagnostic}
    (h : compileAuthoringDraft S tools sha256 sources registry = .ok (some compilation, diagnostics)) :
    compilation.sources = sources ∧ verifyPlanDigest sha256 compilation.plan.val = true := by
  obtain ⟨analysis, -, h⟩ := Checks.bind_eq_ok.mp h
  dsimp only at h
  split at h
  · cases h
  · split at h
    · next plan hplan =>
      cases h
      obtain ⟨document, -, hplan⟩ := Checks.bind_eq_ok.mp hplan
      split at hplan
      · cases hplan
      · split at hplan <;> cases hplan
        exact ⟨rfl, ‹_›⟩
    · cases h

/-- A check of a plan. -/
structure EvaluationCheck where
  id : String
  label : String
  passed : Bool
  detail : String

/-- `EvaluationReport`. -/
structure EvaluationReport where
  passed : Bool
  evaluatedAt : Time
  planDigest : String
  checks : List EvaluationCheck

/-- Whether a node has an agent, and skills, that the plan has. -/
def nodeResolved (agentIds skillIds : List String) (node : Json) : Bool :=
  (match member node ["config", "agentRef"] with
    | some (.str agentRef) => agentRef ∈ agentIds
    | _ => false) &&
  (match member node ["config", "skillRefs"] with
    | some (.arr skillRefs) => skillRefs.all fun
      | .str skillId => skillId ∈ skillIds
      | _ => false
    | _ => true)

/-- `evaluateCompiledPlan`. -/
def evaluateCompiledPlan (now : Time) (plan : S.Plan) : EvaluationReport :=
  let document := plan.val
  let ids (key : String) := (elements (document.get? key)).map (text "id")
  let agentIds := ids "agents"
  let skillIds := ids "skills"
  let nodes := elements (member document ["graph", "nodes"])
  let order := elements (member document ["graph", "nodeOrder"])
  let permissions := elements (document.get? "permissionEnvelopes")
  let capabilities := elements (document.get? "capabilities")
  let agentNodes := nodes.filter fun node => text "kind" node = "agent" ∨ text "kind" node = "evaluate"
  let bound := nodes.filter fun node => match member node ["config", "capabilityId"] with
    | some (.str _) => true
    | _ => false
  let caseWrites := (nodes.map fun node => (elements (member node ["config", "caseWrites"])).length).sum
  let adapter := text "adapterVersion" ((member document ["execution", "engine"]).getD .null)
  let spelled (keys : List String) := String.ofList ((member document keys).getD .null).stringify
  let checks : List EvaluationCheck :=
    [⟨"graph.connected", "Executable topology", order.length = nodes.length,
        toString nodes.length ++ " nodes ordered without a cycle."⟩,
      ⟨"authority.bound", "Capability authority", permissions.length = bound.length,
        toString permissions.length ++ " node permission envelopes emitted."⟩,
      ⟨"agents.embedded", "Embedded agent and skill contracts",
        agentNodes.all (nodeResolved agentIds skillIds),
        toString agentNodes.length ++ " agent nodes resolve through " ++ toString agentIds.length ++
          " embedded agent contracts and " ++ toString skillIds.length ++ " skill contracts."⟩,
      ⟨"case-writes.schema", "Case-write contracts", true,
        toString caseWrites ++ " canonical command schemas validated."⟩,
      ⟨"budgets.bounded", "Execution budgets", 0 < number document ["budgets", "maxDurationMs"] ∧
          (capabilities.length : ℚ) ≤ number document ["budgets", "maxCapabilityCalls"],
        "Duration " ++ spelled ["budgets", "maxDurationMs"] ++ "ms; " ++
          spelled ["budgets", "maxCapabilityCalls"] ++ " capability calls."⟩,
      ⟨"runtime.compatible", "LangGraph runtime profile", adapter = "harness-langgraph-v1", adapter⟩]
  ⟨checks.all (·.passed), now, plan.planDigest, checks⟩

end ControlApi

end HarnessFramework
