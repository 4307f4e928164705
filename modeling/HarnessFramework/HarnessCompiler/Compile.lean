import HarnessFramework.HarnessCompiler.SerdeJson
import HarnessFramework.Library.Checks

/-!
# The compiler

`compile` of `crates/harness-compiler/src/main.rs`: a domain package, its analyzed workflow and a
registry of model profiles become a plan. The analysis is `lgir-core`'s, outside the repository, so
its result is an input. The values that pass through are `Document`s: what serde reads is well
formed.

## Main definitions

* `Document` — a well-formed value
* `Package`, `Workflow`, `Sources` — what the compiler reads
* `compileNode`, `compile` — what it makes of a node, and of all
* `CompiledPlan`, `CompiledPlan.content`, `CompiledPlan.document` — a plan, what is digested of it
  and what is written

## Main results

* `compile_ok` — what a compiled plan is made of
-/

namespace HarnessFramework

namespace HarnessCompiler

open Checks

/-! ## Documents -/

/-- A value as serde reads it. -/
abbrev Document : Type := { value : Value // value.WellFormed }

namespace Document

def null : Document := ⟨.null, trivial⟩

def bool (b : Bool) : Document := ⟨.bool b, trivial⟩

def nat (n : ℕ) : Document := ⟨.nat n, trivial⟩

def string (s : String) : Document := ⟨.string s, trivial⟩

def array (items : List Document) : Document :=
  ⟨.array (items.map (·.val)), Value.itemsWellFormed_iff.mpr fun item hitem => by
    obtain ⟨d, -, rfl⟩ := List.mem_map.mp hitem
    exact d.2⟩

/-- An object with distinct keys. -/
def object (members : List (String × Document)) (h : (members.map Prod.fst).Nodup) : Document :=
  ⟨.object (members.map fun m => (m.1, m.2.val)),
    by simpa [Function.comp_def] using h,
    Value.membersWellFormed_iff.mpr fun m hm => by
      obtain ⟨d, -, rfl⟩ := List.mem_map.mp hm
      exact d.2.2⟩

/-- An array of strings. -/
def strings (texts : List String) : Document := array (texts.map string)

end Document

/-- The members of `target` and those of `source` that it has no key of. -/
def addMembers (target source : List (String × Value)) : List (String × Value) :=
  target ++ source.filter fun m => m.1 ∉ target.map Prod.fst

theorem nodup_addMembers {target source : List (String × Value)}
    (ht : (target.map Prod.fst).Nodup) (hs : (source.map Prod.fst).Nodup) :
    ((addMembers target source).map Prod.fst).Nodup := by
  rw [addMembers, List.map_append, List.nodup_append]
  refine ⟨ht, hs.sublist (List.filter_sublist.map _), ?_⟩
  rintro key hkey _ hsource rfl
  obtain ⟨m, hm, rfl⟩ := List.mem_map.mp hsource
  have hnew := (List.mem_filter.mp hm).2
  rw [decide_eq_true_eq] at hnew
  exact hnew hkey

theorem wellFormed_addMembers {target source : List (String × Value)}
    (ht : (Value.object target).WellFormed) (hs : (Value.object source).WellFormed) :
    (Value.object (addMembers target source)).WellFormed := by
  rw [Value.WellFormed, Value.membersWellFormed_iff] at ht hs ⊢
  refine ⟨nodup_addMembers ht.1 hs.1, fun m hm => ?_⟩
  rcases List.mem_append.mp hm with hm | hm
  · exact ht.2 m hm
  · exact hs.2 m (List.mem_filter.mp hm).1

/-- `fill_array_defaults`. -/
def fillArrayDefaults (keys : List String) (document : Document) (h : keys.Nodup) : Document :=
  match document with
  | ⟨.object members, hm⟩ =>
    ⟨.object (addMembers members (keys.map fun key => (key, .array []))),
      wellFormed_addMembers hm ⟨by simpa [Function.comp_def] using h,
        Value.membersWellFormed_iff.mpr fun m hm => by
          obtain ⟨key, -, rfl⟩ := List.mem_map.mp hm
          trivial⟩⟩
  | _ => document

/-- `merge_extension_config`. -/
def mergeExtensionConfig (normalized : Document) (source : Option Document) : Document :=
  match normalized, source with
  | ⟨.object target, ht⟩, some ⟨.object sourceConfig, hs⟩ =>
    ⟨.object (addMembers target sourceConfig), wellFormed_addMembers ht hs⟩
  | _, _ => normalized

/-- `insert` of a string into an object; `none` where `as_object_mut().unwrap()` panics. -/
def insertString (key text : String) (document : Document) : Option Document :=
  match document with
  | ⟨.object members, h⟩ =>
    some ⟨.object (addMembers [(key, .string text)] members),
      wellFormed_addMembers ⟨List.nodup_singleton _, trivial, trivial⟩ h⟩
  | _ => none

/-! ## What the compiler reads -/

structure PackageMetadata where
  name : String
  version : String
  domain : String
  objective : String

structure Capability where
  id : String
  kind : String
  effect : String
  adapterBindingId : String
  inputSchema : Document
  outputSchema : Document
  timeoutMs : ℕ
  maxAttempts : ℕ
  idempotent : Bool

/-- The capability as it is written. -/
def Capability.document (capability : Capability) : Document := .object
  [("id", .string capability.id), ("kind", .string capability.kind),
    ("effect", .string capability.effect), ("adapterBindingId", .string capability.adapterBindingId),
    ("inputSchema", capability.inputSchema), ("outputSchema", capability.outputSchema),
    ("timeoutMs", .nat capability.timeoutMs), ("maxAttempts", .nat capability.maxAttempts),
    ("idempotent", .bool capability.idempotent)] (by simp)

/-- The capability of each bound node, one a node. -/
structure Bindings where
  entries : List (String × String)
  nodup : (entries.map Prod.fst).Nodup

/-- The capability that a node is bound to. -/
def Bindings.get (bindings : Bindings) (nodeId : String) : Option String :=
  bindings.entries.lookup nodeId

/-- The ids that nodes are bound to. -/
def Bindings.values (bindings : Bindings) : List String := bindings.entries.map Prod.snd

structure Package where
  apiVersion : String
  kind : String
  metadata : PackageMetadata
  budgets : Document
  modelProfiles : List String
  skills : List Document
  agents : List Document
  capabilities : List Capability
  bindings : Bindings

/-- `capability_by_id`: the last capability of an id. -/
def Package.capabilityById (package : Package) (id : String) : Option Capability :=
  package.capabilities.reverse.find? fun capability => capability.id = id

/-- A node of the normalized workflow. -/
structure WorkflowNode where
  id : String
  kind : Document
  name : String
  summary : Document
  prompt : Document
  inputSchema : Document
  outputSchema : Document
  config : Document

/-- An edge of the normalized workflow. -/
structure WorkflowEdge where
  id : Document
  source : Document
  target : Document
  kind : Document
  condition : Document
  sourcePath : Document
  targetPath : Document

/-- The normalized workflow. -/
structure Workflow where
  name : String
  maxConcurrency : Document
  inputs : Document
  outputs : Document
  nodes : List WorkflowNode
  edges : List WorkflowEdge

/-- What `lgir_core::analyze` returns. -/
structure Analysis where
  ok : Bool
  normalized : Option Workflow
  nodeOrder : List String

/-- What the compiler reads: the package, the analysis of its workflow, the `config` blocks as the
author wrote them with the ids of their nodes, the registry of model profiles, and the path and the
digest of every file. -/
structure Sources where
  package : Package
  analysis : Analysis
  sourceConfigs : List (String × Document)
  profiles : List (String × Document)
  dependencies : List (String × String)

/-! ## What it writes -/

/-- A node of a plan. -/
structure PlanNode where
  id : String
  kind : Document
  name : String
  summary : Document
  prompt : Document
  inputSchema : Document
  outputSchema : Document
  config : Document

/-- The node as it is written. -/
def PlanNode.document (node : PlanNode) : Document := .object
  [("id", .string node.id), ("kind", node.kind), ("name", .string node.name),
    ("summary", node.summary), ("prompt", node.prompt), ("inputSchema", node.inputSchema),
    ("outputSchema", node.outputSchema), ("config", node.config)] (by simp)

/-- The edge as it is written. -/
def WorkflowEdge.document (edge : WorkflowEdge) : Document := .object
  [("id", edge.id), ("from", edge.source), ("to", edge.target), ("kind", edge.kind),
    ("condition", edge.condition), ("sourcePath", edge.sourcePath), ("targetPath", edge.targetPath)]
  (by simp)

/-- A permission envelope of a plan. -/
structure Envelope where
  nodeId : String
  capabilities : List String
  effects : List String
  digest : String
deriving DecidableEq

/-- The envelope as it is written. -/
def Envelope.document (envelope : Envelope) : Document := .object
  [("nodeId", .string envelope.nodeId), ("capabilities", .strings envelope.capabilities),
    ("effects", .strings envelope.effects), ("digest", .string envelope.digest)] (by simp)

/-- A plan before it has a digest. -/
structure CompiledPlan where
  packageDigest : String
  metadata : PackageMetadata
  maxConcurrency : Document
  budgets : Document
  inputs : Document
  outputs : Document
  modelProfiles : List (String × String)
  skills : List Document
  agents : List Document
  capabilities : List Capability
  permissionEnvelopes : List Envelope
  graphName : String
  nodes : List PlanNode
  edges : List WorkflowEdge
  nodeOrder : List String
  dependencies : List (String × String)

/-- The document of an id, or a path, and a digest. -/
def digestDocument (key : String) (h : key ≠ "digest") (entry : String × String) : Document := .object
  [(key, .string entry.1), ("digest", .string entry.2)] (by simpa using h)

/-- `LGIR_REV`. -/
def lgirRev : String := "fec01bf0fa5ff259c071439d63ad71c9979668f9"

/-- `metadata`. -/
def PackageMetadata.document (metadata : PackageMetadata) : Document := .object
  [("name", .string metadata.name), ("version", .string metadata.version),
    ("domain", .string metadata.domain), ("objective", .string metadata.objective)] (by simp)

/-- The dependency manifest. -/
def manifest (dependencies : List (String × String)) : Document :=
  .array (dependencies.map (digestDocument "path" (by decide)))

/-- The members of `content`. -/
def CompiledPlan.contentMembers (plan : CompiledPlan) : List (String × Document) :=
  [("apiVersion", .string "harness.factory/plan-v1"), ("kind", .string "HarnessPlan"),
    ("packageDigest", .string plan.packageDigest),
    ("compiler", .object [("name", .string "harnessc"), ("version", .string "0.1.0"),
      ("lgirCoreRevision", .string lgirRev)] (by simp)),
    ("metadata", plan.metadata.document),
    ("execution", .object [
      ("engine", .object [("kind", .string "langgraph-js"),
        ("adapterVersion", .string "harness-langgraph-v1"), ("profile", .string "poc-v1")] (by simp)),
      ("maxTransitions", .nat 200), ("maxConcurrency", plan.maxConcurrency),
      ("durability", .string "sync")] (by simp)),
    ("budgets", plan.budgets),
    ("schemas", .object [("input", plan.inputs), ("output", plan.outputs)] (by simp)),
    ("modelProfiles", .array (plan.modelProfiles.map (digestDocument "id" (by decide)))),
    ("skills", .array plan.skills), ("agents", .array plan.agents),
    ("capabilities", .array (plan.capabilities.map (·.document))),
    ("permissionEnvelopes", .array (plan.permissionEnvelopes.map (·.document))),
    ("graph", .object [("apiVersion", .string "ladder.dev/v1alpha1"), ("name", .string plan.graphName),
      ("nodes", .array (plan.nodes.map (·.document))), ("edges", .array (plan.edges.map (·.document))),
      ("nodeOrder", .strings plan.nodeOrder)] (by simp)),
    ("dependencyManifest", manifest plan.dependencies)]

/-- `content`. -/
def CompiledPlan.content (plan : CompiledPlan) : Document :=
  .object plan.contentMembers (by simp [contentMembers])

section

variable (sha256 : List Char → String) (spell : JsonNumber → List Char)

/-- `digest`. -/
def digest (document : Document) : String := sha256 (canonicalText spell document.val)

/-- The digest of a plan. -/
def CompiledPlan.planDigest (plan : CompiledPlan) : String := digest sha256 spell plan.content

/-- The id of a plan. -/
def CompiledPlan.planId (plan : CompiledPlan) : String :=
  plan.metadata.name ++ "@" ++ plan.metadata.version ++ ":" ++
    String.ofList ((plan.planDigest sha256 spell).toList.take 12)

/-- The plan as it is written. -/
def CompiledPlan.document (plan : CompiledPlan) : Document :=
  .object (plan.contentMembers ++ [("planId", .string (plan.planId sha256 spell)),
    ("planDigest", .string (plan.planDigest sha256 spell))]) (by simp [contentMembers])

/-! ## Compiling -/

/-- The envelope of a node with a capability. -/
def envelopeOf (nodeId : String) (capability : Capability) : Envelope where
  nodeId
  capabilities := [capability.id]
  effects := [capability.effect]
  digest := digest sha256 spell <| .object
    [("nodeId", .string nodeId), ("capabilities", .strings [capability.id]),
      ("effects", .strings [capability.effect])] (by simp)

/-- The config of a node before its binding: normalized, with the other members of the source. -/
def Sources.config (sources : Sources) (node : WorkflowNode) : Document :=
  mergeExtensionConfig node.config (sources.sourceConfigs.reverse.lookup node.id)

/-- The node of a plan with its config. -/
def planNode (node : WorkflowNode) (config : Document) : PlanNode where
  id := node.id
  kind := node.kind
  name := if node.name = "" then node.id else node.name
  summary := node.summary
  prompt := node.prompt
  inputSchema := node.inputSchema
  outputSchema := node.outputSchema
  config

/-- A node of a plan, and its envelope. -/
def compileNode (sources : Sources) (node : WorkflowNode) :
    Except String (PlanNode × Option Envelope) :=
  match sources.package.bindings.get node.id with
  | none => .ok (planNode node (sources.config node), none)
  | some capabilityId => do
    let config ← orThrow "panic" (insertString "capabilityId" capabilityId (sources.config node))
    let capability ← orThrow ("binding capability missing: " ++ capabilityId)
      (sources.package.capabilityById capabilityId)
    return (planNode node config, some (envelopeOf sha256 spell node.id capability))

/-- The id and the digest of a model profile. -/
def compileProfile (sources : Sources) (id : String) : Except String (String × String) := do
  let profile ← orThrow ("model profile missing: " ++ id) (sources.profiles.lookup id)
  return (id, digest sha256 spell profile)

/-- `compile`. -/
def compile (sources : Sources) : Except String CompiledPlan := do
  let package := sources.package
  ensure (package.apiVersion = "harness.factory/domain-package-v1" ∧ package.kind = "DomainPackage")
    "package.contract_unsupported"
  ensure (sources.analysis.ok = true) "LGIR validation failed"
  let workflow ← orThrow "LGIR returned no normalized workflow" sources.analysis.normalized
  let nodes ← workflow.nodes.mapM (compileNode sha256 spell sources)
  let modelProfiles ← package.modelProfiles.mapM (compileProfile sha256 spell sources)
  return {
    packageDigest := digest sha256 spell (manifest sources.dependencies)
    metadata := package.metadata
    maxConcurrency := workflow.maxConcurrency
    budgets := package.budgets
    inputs := workflow.inputs
    outputs := workflow.outputs
    modelProfiles
    skills := package.skills.map fun skill => fillArrayDefaults ["allowedCapabilityIds"] skill (by decide)
    agents := package.agents.map fun agent =>
      fillArrayDefaults ["skillIds", "caseWrites"] agent (by decide)
    capabilities := package.capabilities.filter (·.id ∈ package.bindings.values)
    permissionEnvelopes := nodes.filterMap (·.2)
    graphName := workflow.name
    nodes := nodes.map (·.1)
    edges := workflow.edges
    nodeOrder := sources.analysis.nodeOrder
    dependencies := sources.dependencies }

end

/-- **What the authority of a compiled plan is made of.** -/
theorem compile_ok {sha256 : List Char → String} {spell : JsonNumber → List Char} {sources : Sources}
    {plan : CompiledPlan} (h : compile sha256 spell sources = .ok plan) :
    ∃ workflow nodes, sources.analysis.normalized = some workflow ∧
      List.Forall₂ (fun node result => compileNode sha256 spell sources node = .ok result)
        workflow.nodes nodes ∧
      plan.nodes = nodes.map (·.1) ∧ plan.permissionEnvelopes = nodes.filterMap (·.2) ∧
      plan.capabilities =
        sources.package.capabilities.filter (·.id ∈ sources.package.bindings.values) := by
  simp only [compile, bind_eq_ok, orThrow_eq_ok, pure_eq_ok] at h
  obtain ⟨_, -, _, -, workflow, hworkflow, nodes, hnodes, _, -, rfl⟩ := h
  exact ⟨workflow, nodes, hworkflow, mapM_eq_ok.mp hnodes, rfl, rfl, rfl⟩

/-! ## A package -/

namespace Sample

/-- A capability with an effect. -/
def capability (id effect : String) : Capability :=
  ⟨id, "tool", effect, "binding", .object [] (by simp), .object [] (by simp), 1000, 1, true⟩

/-- A workflow of one node, with the capabilities of its package, the bindings of the node and of
another one, and the keys of its input schema. -/
def sources (capabilities : List Capability) (bound other : String) (keys : List String)
    (h : keys.Nodup) : Sources where
  package := {
    apiVersion := "harness.factory/domain-package-v1"
    kind := "DomainPackage"
    metadata := ⟨"name", "1", "domain", "objective"⟩
    budgets := .object [] (by simp)
    modelProfiles := []
    skills := []
    agents := []
    capabilities
    bindings := ⟨[("node", bound), ("other", other)], by simp⟩ }
  analysis := ⟨true, some {
    name := "workflow"
    maxConcurrency := .nat 1
    inputs := .object (keys.map fun key => (key, .null)) (by simpa [Function.comp_def] using h)
    outputs := .object [] (by simp)
    nodes := [⟨"node", .string "tool", "", .null, .null, .null, .null, .object [] (by simp)⟩]
    edges := [] }, ["node"]⟩
  sourceConfigs := []
  profiles := []
  dependencies := []

end Sample

end HarnessCompiler

end HarnessFramework
