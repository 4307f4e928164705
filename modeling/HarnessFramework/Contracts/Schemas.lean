import HarnessFramework.Contracts.Schema

/-!
# The schemas of a plan

`harnessPlanSchema` of `packages/contracts/src/index.ts`, and the schemas it is made of.

## Main definitions

* `graphNodeSchema`, `graphEdgeSchema`, `capabilityDefinitionSchema`, `permissionEnvelopeSchema`,
  `compiledSkillSchema`, `compiledAgentSchema`
* `harnessPlanSchema`
* `primitiveSupported` — the refinement of `graphNodeSchema`
-/

namespace HarnessFramework

namespace Schema

/-! ## Texts and numbers -/

/-- `z.string()`. -/
def string : Schema := .text fun _ => true

/-- `z.string().min(length)`. -/
def atLeast (length : ℕ) : Schema := .text fun s => length ≤ (Json.utf16 s).length

/-- `z.literal(text)`. -/
def literal (text : String) : Schema := .text (· = text)

/-- `z.enum(texts)`. -/
def oneOf (texts : List String) : Schema := .text (· ∈ texts)

/-- `z.string().regex(/^[a-f0-9]{64}$/)`. -/
def sha256Text : Schema := .text fun s =>
  s.toList.length = 64 && s.toList.all fun c => c ∈ "abcdef0123456789".toList

/-- The characters of an id after the first. -/
def idCharacter (c : Char) : Bool :=
  'a' ≤ c ∧ c ≤ 'z' ∨ '0' ≤ c ∧ c ≤ '9' ∨ c ∈ ['.', '_', '-']

/-- `z.string().regex(/^[a-z0-9][a-z0-9._-]*$/)`. -/
def idText : Schema := .text fun s =>
  match s.toList with
  | [] => false
  | first :: rest => idCharacter first && first ∉ ['.', '_', '-'] && rest.all idCharacter

/-- `z.number().int()` between bounds: an integer that a double holds without loss. -/
def integer (low high : ℤ) : Schema := .number fun n =>
  n.toRat.den = 1 ∧ n.toRat.num.natAbs < 2 ^ 53 ∧ low ≤ n.toRat.num ∧ n.toRat.num ≤ high

/-- The integers from `low` on. -/
def integerFrom (low : ℤ) : Schema := integer low (2 ^ 53)

/-- `z.object(fields).strict()`. -/
def strict (fields : List (String × Presence × Schema)) : Schema := .object fields fun _ => true

end Schema

open Schema

/-! ## Parts of a plan -/

/-- `effectClassSchema`. -/
def effectClassSchema : Schema :=
  oneOf ["none", "read", "reversible", "paid", "external", "destructive"]

/-- `capabilityKindSchema`. -/
def capabilityKindSchema : Schema := oneOf ["model", "tool", "deterministic"]

/-- `capabilityDefinitionSchema`. -/
def capabilityDefinitionSchema : Schema := strict
  [("id", .required, atLeast 1), ("kind", .required, capabilityKindSchema),
    ("effect", .required, effectClassSchema), ("adapterBindingId", .required, atLeast 1),
    ("inputSchema", .default (.obj []), .record), ("outputSchema", .default (.obj []), .record),
    ("timeoutMs", .required, integerFrom 1), ("maxAttempts", .default (.nat 1), integer 1 10),
    ("idempotent", .required, .boolean)]

/-- `permissionEnvelopeSchema`. -/
def permissionEnvelopeSchema : Schema := strict
  [("nodeId", .required, atLeast 1), ("capabilities", .required, .array (atLeast 1)),
    ("effects", .required, .array effectClassSchema), ("digest", .required, sha256Text)]

/-- `String(value ?? default)`. -/
def stringOr (default : String) (value : Option Json) : String :=
  match value.filter (· ≠ .null) with
  | some value => String.ofList value.toJsString
  | none => default

/-- `supportedTransformOperations`. -/
def supportedTransformOperations : List String :=
  ["identity", "select", "project", "merge", "deduplicate", "sort", "slice"]

/-- `supportedAggregatorOperations`. -/
def supportedAggregatorOperations : List String := ["collect", "merge", "concat", "vote"]

/-- `supportedJoinModes`. -/
def supportedJoinModes : List String := ["all", "allSettled"]

/-- Whether what a node of a kind is configured to do is implemented. -/
def primitiveSupported (kind : String) (config : List (String × Json)) : Bool :=
  let operation := lastMember "operation" config
  match kind with
  | "transform" => stringOr "identity" operation ∈ supportedTransformOperations
  | "aggregator" => stringOr "collect" operation ∈ supportedAggregatorOperations
  | "join" => stringOr (stringOr "all" operation) (lastMember "mode" config) ∈ supportedJoinModes
  | _ => true

/-- The refinement of `graphNodeSchema`, on parsed members. -/
def nodeRefinement (members : List (String × Json)) : Bool :=
  match lastMember "kind" members, lastMember "config" members with
  | some (.str kind), some (.obj config) => primitiveSupported kind config
  | _, _ => true

/-- The members of a `graphNodeSchema`. -/
def graphNodeFields : List (String × Presence × Schema) :=
  [("id", .required, atLeast 1),
    ("kind", .required, oneOf ["input", "output", "agent", "tool", "transform", "condition", "evaluate",
      "join", "aggregator"]),
    ("name", .required, atLeast 1), ("summary", .optional, string), ("prompt", .optional, string),
    ("inputSchema", .optional, .nullable .record), ("outputSchema", .optional, .nullable .record),
    ("config", .default (.obj []), .record)]

/-- `graphNodeSchema`. -/
def graphNodeSchema : Schema := .object graphNodeFields nodeRefinement

/-- `graphEdgeSchema`. -/
def graphEdgeSchema : Schema := strict
  [("id", .required, atLeast 1), ("from", .required, atLeast 1), ("to", .required, atLeast 1),
    ("kind", .required, oneOf ["data", "dependency", "control"]), ("condition", .optional, string),
    ("sourcePath", .optional, string), ("targetPath", .optional, string)]

/-- `businessCommandTypeSchema`. -/
def businessCommandTypeSchema : Schema := oneOf
  ["AddSubject", "LinkEvidence", "ProposeClaim", "AcceptClaimAsFact", "RecordScreeningFinding",
    "RecordAssumption", "RaiseContradiction", "ResolveContradiction", "ProposeWorkItem",
    "CompleteWorkItem", "LinkExecution", "SubmitDecisionRecommendation", "RecordGateResult",
    "RecordQAResult", "RecordReview", "RequestHumanReview", "TransitionCaseStatus",
    "FinalizeDisposition"]

/-- `caseWriteContractSchema`. -/
def caseWriteContractSchema : Schema := strict
  [("commandType", .required, businessCommandTypeSchema), ("when", .optional, atLeast 1),
    ("payload", .required, .record), ("payloadSchema", .required, .record)]

/-- `compiledSkillSchema`. -/
def compiledSkillSchema : Schema := strict
  [("id", .required, idText), ("name", .required, atLeast 1), ("description", .required, atLeast 1),
    ("instructions", .required, atLeast 1),
    ("allowedCapabilityIds", .default (.arr []), .array (atLeast 1)), ("version", .required, atLeast 1)]

/-- `compiledAgentSchema`. -/
def compiledAgentSchema : Schema := strict
  [("id", .required, idText), ("name", .required, atLeast 1), ("description", .required, atLeast 1),
    ("role", .required, atLeast 1), ("prompt", .required, atLeast 1),
    ("modelProfileId", .required, atLeast 1),
    ("runtimeTarget", .required, oneOf ["local_http", "azure_foundry"]),
    ("skillIds", .default (.arr []), .array (atLeast 1)),
    ("caseWrites", .default (.arr []), .array caseWriteContractSchema),
    ("primaryCapabilityId", .optional, atLeast 1), ("inputSchema", .required, .record),
    ("outputSchema", .required, .record), ("version", .required, atLeast 1)]

/-! ## Plans -/

/-- The graph of a `harnessPlanSchema`. -/
def planGraphSchema : Schema := strict
  [("apiVersion", .required, literal "ladder.dev/v1alpha1"), ("name", .required, atLeast 1),
    ("nodes", .required, .array graphNodeSchema), ("edges", .required, .array graphEdgeSchema),
    ("nodeOrder", .required, .array string)]

/-- `harnessPlanSchema`. -/
def harnessPlanSchema : Schema := strict
  [("apiVersion", .required, literal "harness.factory/plan-v1"),
    ("kind", .required, literal "HarnessPlan"), ("planId", .required, atLeast 1),
    ("planDigest", .required, sha256Text), ("packageDigest", .required, sha256Text),
    ("compiler", .required, strict [("name", .required, literal "harnessc"),
      ("version", .required, atLeast 1), ("lgirCoreRevision", .required, atLeast 7)]),
    ("metadata", .required, strict [("name", .required, atLeast 1), ("version", .required, atLeast 1),
      ("domain", .required, atLeast 1), ("objective", .required, atLeast 1)]),
    ("execution", .required, strict [
      ("engine", .required, strict [("kind", .required, literal "langgraph-js"),
        ("adapterVersion", .required, literal "harness-langgraph-v1"),
        ("profile", .required, literal "poc-v1")]),
      ("maxTransitions", .required, integer 1 10000), ("maxConcurrency", .required, integer 1 32),
      ("durability", .required, literal "sync")]),
    ("budgets", .required, strict [("maxDurationMs", .required, integerFrom 1),
      ("maxCostUsd", .required, .number fun n => 0 ≤ n.toRat),
      ("maxModelCalls", .required, integerFrom 0), ("maxCapabilityCalls", .required, integerFrom 0)]),
    ("schemas", .required, strict [("input", .required, .record), ("output", .required, .record)]),
    ("modelProfiles", .required, .array (strict [("id", .required, atLeast 1),
      ("digest", .required, sha256Text)])),
    ("skills", .optional, .array compiledSkillSchema),
    ("agents", .optional, .array compiledAgentSchema),
    ("capabilities", .required, .array capabilityDefinitionSchema),
    ("permissionEnvelopes", .required, .array permissionEnvelopeSchema),
    ("graph", .required, planGraphSchema),
    ("dependencyManifest", .required, .array (strict [("path", .required, atLeast 1),
      ("digest", .required, sha256Text)]))]

end HarnessFramework
