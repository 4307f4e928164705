import HarnessFramework.ControlApi.Topology
import HarnessFramework.ControlApi.AuthoringAgents
import HarnessFramework.Library.Walks

/-!
# What an author is told

`analyzeAuthoringSources` of `apps/control-api/src/authoring.ts`, and the diagnostics that
`compileAuthoringDraft` adds before it runs the compiler. Both work on the documents that the sources parse
to, which are taken to be of the types that the code declares for them: a package may embed anything as a
capability, a skill or an agent, and a config may hold anything.

The messages of a schema are an argument. The compiler is run exactly for the documents that nothing is
wrong with.

## Main definitions

* `PackageSource`, `WorkflowSource` — the documents
* `analyzeAuthoringSources`, `compilerDiagnostics` — the diagnostics
* `Ready` — documents that nothing is wrong with

## Main results

* `topologicalOrder_isSome` — the order of a graph is found, also if ids are not distinct
* `diagnostics_iff` — no error is reported exactly for documents that are ready
* `compiles_iff_ready` — a draft is compiled exactly if its documents are ready
-/

namespace HarnessFramework

namespace ControlApi

/-! ## Documents -/

/-- `WorkflowNode`, as far as it is analyzed. -/
structure WorkflowNode where
  id : String
  kind : String
  config : Option (List (String × Json))

/-- `WorkflowEdge`, as far as it is analyzed: `from` and `to` are its ends. -/
structure WorkflowEdge where
  id : String
  source : String
  target : String

/-- `WorkflowSource`. -/
structure WorkflowSource where
  apiVersion : String
  kind : String
  nodes : List WorkflowNode
  edges : List WorkflowEdge

/-- `PackageSource`. -/
structure PackageSource where
  apiVersion : String
  kind : String
  name : String
  version : String
  domain : String
  objective : String
  modelProfiles : List String
  skills : List Json
  agents : List Json
  capabilities : List Json
  /-- The capability of each node that is bound. -/
  bindings : List (String × String)

/-- A member of the config of a node. -/
def WorkflowNode.configured (node : WorkflowNode) (key : String) : Option Json :=
  node.config.bind (lastMember key)

/-- The ids of the nodes. -/
def WorkflowSource.ids (workflow : WorkflowSource) : List String := workflow.nodes.map (·.id)

/-- The ends of the edges. -/
def WorkflowSource.ends (workflow : WorkflowSource) : List (String × String) :=
  workflow.edges.map fun edge => (edge.source, edge.target)

/-! ## Diagnostics -/

/-- A diagnostic unless `p` holds. -/
def expect (p : Prop) [Decidable p] (d : AuthoringDiagnostic) : List AuthoringDiagnostic :=
  if p then [] else [d]

/-- `nodeKinds`. -/
def nodeKinds : List String :=
  ["input", "output", "agent", "tool", "transform", "condition", "evaluate", "join", "aggregator"]

/-- A value is an object. -/
def isObject : Option Json → Bool
  | some (.obj _) => true
  | _ => false

/-- The path of the case writes of a node. -/
def caseWritesPath (id : String) : String := "workflow.nodes." ++ id ++ ".config.caseWrites"

/-- What `validateCaseWrites` says of an entry. -/
def caseWriteDiagnostics (id : String) (index : ℕ) (entry : Json) : List AuthoringDiagnostic :=
  let path := caseWritesPath id ++ "." ++ toString index
  if isObject (some entry) then
    expect (((entry.get? "commandType").bind businessCommandTypeSchema.parse).isSome = true)
      (diagnostic "author.case_write_command_invalid" (path ++ ".commandType")
        "Use a supported canonical case command.") ++
    expect (isObject (entry.get? "payload") = true)
      (diagnostic "author.case_write_payload_required" (path ++ ".payload")
        "An executable payload mapping is required for each case write.") ++
    expect (isObject (entry.get? "payloadSchema") = true)
      (diagnostic "author.case_write_schema_required" (path ++ ".payloadSchema")
        "A JSON Schema object is required for each case write.")
  else [diagnostic "author.case_write_invalid" path "Case write must be an object."]

/-- `validateCaseWrites`. -/
def validateCaseWrites (node : WorkflowNode) : List AuthoringDiagnostic :=
  match node.configured "caseWrites" with
  | none => []
  | some (.arr writes) => walk (fun _ => caseWriteDiagnostics node.id) [] 0 writes
  | some _ => [diagnostic "author.case_writes_array_required" (caseWritesPath node.id)
      "caseWrites must be an array."]

/-- What is said of a node. -/
def nodeDiagnostics (before : List WorkflowNode) (index : ℕ) (node : WorkflowNode) :
    List AuthoringDiagnostic :=
  expect (node.id ≠ "" ∧ node.id ∉ before.map (·.id))
    (diagnostic "author.node_id_invalid" s!"workflow.spec.nodes.{index}.id"
      "Node IDs must be non-empty and unique.") ++
  expect (node.kind ∈ nodeKinds)
    (diagnostic "author.node_kind_unsupported" s!"workflow.spec.nodes.{index}.kind"
      s!"Unsupported primitive: {node.kind}.") ++
  validatePrimitiveConfig node.kind index (node.config.getD []) ++ validateCaseWrites node

/-- What is said of an edge. -/
def edgeDiagnostics (ids : List String) (_ : List WorkflowEdge) (index : ℕ) (edge : WorkflowEdge) :
    List AuthoringDiagnostic :=
  expect (edge.source ∈ ids ∧ edge.target ∈ ids)
    (diagnostic "author.edge_reference_missing" s!"workflow.spec.edges.{index}"
      s!"Edge {edge.id} references a missing node.") ++
  expect (edge.source ≠ edge.target)
    (diagnostic "author.edge_self_reference" s!"workflow.spec.edges.{index}"
      "Self-referencing edges are not executable.")

/-- The runtime targets that are understood. -/
def runtimeTargets : List String := ["local_http", "azure_foundry"]

/-- The runtime target that a node names. -/
def targetOf (node : WorkflowNode) : Option String :=
  (textOf (node.configured "runtimeTarget")).filter (· ∈ runtimeTargets)

/-- What is said of the runtime target of a node. -/
def targetDiagnostics (_ : List WorkflowNode) (index : ℕ) (node : WorkflowNode) :
    List AuthoringDiagnostic :=
  expect ((node.configured "runtimeTarget").isSome → (targetOf node).isSome)
    (diagnostic "author.runtime_target_invalid" s!"workflow.spec.nodes.{index}.config.runtimeTarget"
      "Runtime target must be local_http or azure_foundry.")

/-- The ids of the items that a schema accepts. -/
def parsedIds (schema : Schema) (items : List Json) : List String :=
  items.filterMap fun item => (schema.parse item).map (text "id")

/-- The texts in an array of a parsed item. -/
def textsIn (key : String) (item : Json) : List String := (elements (item.get? key)).filterMap fun value =>
  textOf (some value)

section

variable (issue : Schema → Json → String)

/-- What is said of a capability. -/
def capabilityDiagnostics (_ : List Json) (index : ℕ) (capability : Json) : List AuthoringDiagnostic :=
  expect ((capabilityDefinitionSchema.parse capability).isSome = true)
    (diagnostic "author.capability_invalid" s!"package.capabilities.{index}"
      (issue capabilityDefinitionSchema capability))

/-- What is said of a skill. -/
def skillDiagnostics (before : List Json) (index : ℕ) (skill : Json) : List AuthoringDiagnostic :=
  match compiledSkillSchema.parse skill with
  | none =>
    [diagnostic "author.skill_invalid" s!"package.skills.{index}" (issue compiledSkillSchema skill)]
  | some parsed => expect (text "id" parsed ∉ parsedIds compiledSkillSchema before)
      (diagnostic "author.skill_duplicate" s!"package.skills.{index}.id"
        ("Skill " ++ text "id" parsed ++ " is duplicated."))

/-- What is said of an agent. -/
def agentDiagnostics (skillIds : List String) (before : List Json) (index : ℕ) (agent : Json) :
    List AuthoringDiagnostic :=
  match compiledAgentSchema.parse agent with
  | none =>
    [diagnostic "author.agent_invalid" s!"package.agents.{index}" (issue compiledAgentSchema agent)]
  | some parsed =>
    expect (text "id" parsed ∉ parsedIds compiledAgentSchema before)
      (diagnostic "author.agent_duplicate" s!"package.agents.{index}.id"
        ("Agent " ++ text "id" parsed ++ " is duplicated.")) ++
    (textsIn "skillIds" parsed).flatMap fun skillId => expect (skillId ∈ skillIds)
      (diagnostic "author.agent_skill_missing" s!"package.agents.{index}.skillIds"
        ("Agent " ++ text "id" parsed ++ " references missing skill " ++ skillId ++ "."))

end

/-- The agent that a node refers to. -/
def agentRef (node : WorkflowNode) : Option String :=
  if node.kind = "agent" ∨ node.kind = "evaluate" then textOf (node.configured "agentRef") else none

/-- The skills that a node refers to. -/
def nodeSkillRefs (node : WorkflowNode) : List String :=
  (itemsOf (node.configured "skillRefs")).filterMap fun value => textOf (some value)

/-- What is said of the references of a node. -/
def referenceDiagnostics (agentIds skillIds : List String) (_ : List WorkflowNode) (index : ℕ)
    (node : WorkflowNode) : List AuthoringDiagnostic :=
  ((agentRef node).toList.flatMap fun agentId => expect (agentId ∈ agentIds)
    (diagnostic "author.node_agent_missing" s!"workflow.spec.nodes.{index}.config.agentRef"
      ("Node " ++ node.id ++ " references missing source agent " ++ agentId ++ "."))) ++
  (nodeSkillRefs node).flatMap fun skillId => expect (skillId ∈ skillIds)
    (diagnostic "author.node_skill_missing" s!"workflow.spec.nodes.{index}.config.skillRefs"
      ("Node " ++ node.id ++ " references missing source skill " ++ skillId ++ "."))

/-- What is said of a binding. -/
def bindingDiagnostics (ids : List String) (capabilities : List Json) (binding : String × String) :
    List AuthoringDiagnostic :=
  let path := "package.bindings." ++ binding.1
  expect (binding.1 ∈ ids)
    (diagnostic "author.binding_node_missing" path "Binding references a missing node.") ++
  expect (∃ candidate ∈ capabilities, textOf (candidate.get? "id") = some binding.2)
    ⟨"author.binding_capability_external", .warning, path,
      "Capability " ++ binding.2 ++ " must resolve from the gateway registry before compile."⟩

/-- The order of the nodes. Twice the number of nodes is fuel enough. -/
def WorkflowSource.order (workflow : WorkflowSource) : List String :=
  (topologicalOrder (2 * workflow.ids.length) workflow.ids workflow.ends).getD []

/-- `analyzeAuthoringSources`: the diagnostics. -/
def analyzeAuthoringSources (issue : Schema → Json → String) (pkg : PackageSource)
    (workflow : WorkflowSource) : List AuthoringDiagnostic :=
  let skillIds := parsedIds compiledSkillSchema pkg.skills
  let agentIds := parsedIds compiledAgentSchema pkg.agents
  expect (pkg.apiVersion = "harness.factory/domain-package-v1" ∧ pkg.kind = "DomainPackage")
    (diagnostic "author.package_contract_unsupported" "package"
      "Expected harness.factory/domain-package-v1 DomainPackage.") ++
  expect (pkg.name ≠ "" ∧ pkg.domain ≠ "" ∧ pkg.version ≠ "" ∧ pkg.objective ≠ "")
    (diagnostic "author.package_metadata_required" "package.metadata"
      "Name, domain, version, and objective are required.") ++
  expect (workflow.apiVersion = "ladder.dev/v1alpha1" ∧ workflow.kind = "Workflow")
    (diagnostic "author.workflow_contract_unsupported" "workflow"
      "Expected ladder.dev/v1alpha1 Workflow.") ++
  walk nodeDiagnostics [] 0 workflow.nodes ++
  walk (edgeDiagnostics workflow.ids) [] 0 workflow.edges ++
  walk targetDiagnostics [] 0 workflow.nodes ++
  expect ((workflow.nodes.filterMap targetOf).dedup.length ≤ 1)
    (diagnostic "author.runtime_target_mixed" "workflow.spec.nodes"
      "A POC harness invocation must use one runtime target across all agent nodes.") ++
  graphCycle workflow.ids workflow.order ++
  expect (∃ node ∈ workflow.nodes, node.kind = "input")
    (diagnostic "author.input_missing" "workflow.spec.nodes" "At least one input node is required.") ++
  expect (∃ node ∈ workflow.nodes, node.kind = "output")
    (diagnostic "author.output_missing" "workflow.spec.nodes" "At least one output node is required.") ++
  walk (capabilityDiagnostics issue) [] 0 pkg.capabilities ++
  walk (skillDiagnostics issue) [] 0 pkg.skills ++
  walk (agentDiagnostics issue skillIds) [] 0 pkg.agents ++
  walk (referenceDiagnostics agentIds skillIds) [] 0 workflow.nodes ++
  pkg.bindings.flatMap (bindingDiagnostics workflow.ids pkg.capabilities)

/-! ### The loop ends

Ids that are not distinct are queued once for every node, and once more when a count comes to zero. -/

/-- How many nodes wait for one before them. -/
def waiting (nodes : List String) (incoming : String → Option ℤ) : ℕ :=
  nodes.countP fun id => 0 < (incoming id).getD 0

/-- A node that waits for one less is queued when it waits for none. -/
theorem waiting_update {nodes : List String} {incoming : String → Option ℤ} {target : String} {k : ℤ}
    (htarget : target ∈ nodes) (hk : incoming target = some k) :
    waiting nodes (Function.update incoming target (some (k - 1))) + (if k = 1 then 1 else 0) ≤
      waiting nodes incoming := by
  have hmono : ∀ ids : List String,
      waiting ids (Function.update incoming target (some (k - 1))) ≤ waiting ids incoming := by
    intro ids
    refine List.countP_mono_left fun id _ hid => ?_
    by_cases heq : id = target
    · rw [heq, Function.update_self, Option.getD_some, decide_eq_true_eq] at hid
      rw [heq, hk, Option.getD_some, decide_eq_true_eq]
      omega
    · rwa [Function.update_of_ne heq] at hid
  split
  · next hone =>
    subst hone
    obtain ⟨before, after, rfl⟩ := List.append_of_mem htarget
    have hbefore := hmono before
    have hafter := hmono after
    unfold waiting at hbefore hafter ⊢
    rw [List.countP_append, List.countP_append, List.countP_cons, List.countP_cons, Function.update_self,
      hk, Option.getD_some, Option.getD_some, if_neg (by decide), if_pos (by decide)]
    omega
  · exact hmono nodes

/-- **What is queued and what waits gets no more** when edges are taken away. -/
theorem foldl_release_le {nodes targets queue : List String} {incoming : String → Option ℤ}
    (htargets : ∀ id ∈ targets, id ∈ nodes) (hincoming : ∀ id ∈ nodes, ∃ k, incoming id = some k) :
    (targets.foldl release (incoming, queue)).2.length +
        waiting nodes (targets.foldl release (incoming, queue)).1 ≤ queue.length + waiting nodes incoming ∧
      ∀ id ∈ nodes, ∃ k, (targets.foldl release (incoming, queue)).1 id = some k := by
  induction targets generalizing incoming queue with
  | nil => exact ⟨Nat.le_refl _, hincoming⟩
  | cons target targets ih =>
    obtain ⟨htarget, htargets⟩ := List.forall_mem_cons.mp htargets
    obtain ⟨k, hk⟩ := hincoming target htarget
    have hwaiting := waiting_update htarget hk
    have hkept : ∀ id ∈ nodes, ∃ l, Function.update incoming target (some (k - 1)) id = some l := by
      intro id hid
      by_cases heq : id = target
      · exact ⟨k - 1, by rw [heq, Function.update_self]⟩
      · rw [Function.update_of_ne heq]
        exact hincoming id hid
    have hfirst : release (incoming, queue) target =
        (Function.update incoming target (some (k - 1)),
          if k - 1 = 0 then queue ++ [target] else queue) := by
      simp only [release, hk, Option.getD_some, Function.update_self, Option.some_inj]
      split <;> rfl
    rw [List.foldl_cons, hfirst]
    split
    · next hzero =>
      obtain ⟨hle, hsome⟩ := @ih (queue ++ [target]) _ htargets hkept
      rw [if_pos (by omega)] at hwaiting
      rw [List.length_append, List.length_singleton] at hle
      exact ⟨by omega, hsome⟩
    · obtain ⟨hle, hsome⟩ := @ih queue _ htargets hkept
      exact ⟨by omega, hsome⟩

theorem orderLoop_isSome {nodes : List String} {outgoing : String → Option (List String)}
    (houtgoing : ∀ id, ∀ target ∈ (outgoing id).getD [], target ∈ nodes) {fuel : ℕ}
    {incoming : String → Option ℤ} {queue order : List String}
    (hincoming : ∀ id ∈ nodes, ∃ k, incoming id = some k)
    (hfuel : queue.length + waiting nodes incoming ≤ fuel) :
    ∃ result, orderLoop outgoing fuel incoming queue order = some result := by
  induction fuel generalizing incoming queue order with
  | zero =>
    cases queue with
    | nil => exact ⟨order, rfl⟩
    | cons id queue => simp at hfuel
  | succ fuel ih =>
    cases queue with
    | nil => exact ⟨order, rfl⟩
    | cons id queue =>
      rw [orderLoop]
      split
      · exact ⟨order, rfl⟩
      · obtain ⟨hle, hsome⟩ := @foldl_release_le nodes _ queue incoming (houtgoing id) hincoming
        rw [List.length_cons] at hfuel
        exact ih hsome (by omega)

/-- **An order is found, also if ids are not distinct.** -/
theorem topologicalOrder_isSome (nodes : List String) (edges : List (String × String)) {fuel : ℕ}
    (hfuel : 2 * nodes.length ≤ fuel) : ∃ order, topologicalOrder fuel nodes edges = some order := by
  obtain ⟨hincoming, houtgoing⟩ := linksOf_eq nodes edges
  refine @orderLoop_isSome nodes _ ?_ _ _ _ _ ?_ ?_
  · intro id target htarget
    rw [houtgoing] at htarget
    split at htarget
    · rw [Option.getD_some, targetsOf, List.mem_map] at htarget
      obtain ⟨edge, hedge, rfl⟩ := htarget
      exact (mem_resolved.mp (List.mem_filter.mp hedge).1).2.2
    · cases htarget
  · intro id hid
    exact ⟨_, by rw [hincoming, if_pos hid]⟩
  · have hqueue := List.length_filter_le (fun id => (linksOf nodes edges).incoming id = some 0) nodes
    have hwaiting : waiting nodes (linksOf nodes edges).incoming ≤ nodes.length := List.countP_le_length
    omega

/-! ## What the compiler is not run for -/

/-- The items that a schema accepts, as it parses them. -/
def parsedItems (schema : Schema) (items : List Json) : List Json := items.filterMap schema.parse

/-- A capability is registered with the gateway, or embedded in the package. -/
def Available (registered : List String) (pkg : PackageSource) (id : String) : Prop :=
  id ∈ registered ∨ id ∈ parsedIds capabilityDefinitionSchema pkg.capabilities

instance (registered : List String) (pkg : PackageSource) (id : String) :
    Decidable (Available registered pkg id) :=
  inferInstanceAs (Decidable (_ ∨ _))

/-- The primary capability of a parsed agent. -/
def primaryCapability (agent : Json) : Option String :=
  (textOf (agent.get? "primaryCapabilityId")).filter (· ≠ "")

/-- What `compileAuthoringDraft` adds, for the ids that are registered with the gateway and the ids of the
model profiles that are configured. -/
def compilerDiagnostics (registered profiles : List String) (pkg : PackageSource) :
    List AuthoringDiagnostic :=
  (pkg.bindings.flatMap fun binding =>
    if Available registered pkg binding.2 then
      expect (binding.2 ∈ parsedIds capabilityDefinitionSchema pkg.capabilities)
        (diagnostic "compiler.capability_not_embedded" ("package.bindings." ++ binding.1)
          ("Capability " ++ binding.2 ++ " must be materialized into the package before compilation."))
    else [diagnostic "compiler.capability_unresolved" ("package.bindings." ++ binding.1)
      ("Capability " ++ binding.2 ++ " is neither embedded nor registered in the gateway.")]) ++
  walk (fun _ index skill => (textsIn "allowedCapabilityIds" skill).flatMap fun id =>
    expect (Available registered pkg id)
      (diagnostic "compiler.skill_capability_unresolved" s!"package.skills.{index}.allowedCapabilityIds"
        ("Skill " ++ text "id" skill ++ " references unresolved capability " ++ id ++ ".")))
    [] 0 (parsedItems compiledSkillSchema pkg.skills) ++
  walk (fun _ index agent => (primaryCapability agent).toList.flatMap fun id =>
    expect (Available registered pkg id)
      (diagnostic "compiler.agent_capability_unresolved" s!"package.agents.{index}.primaryCapabilityId"
        ("Agent " ++ text "id" agent ++ " references unresolved capability " ++ id ++ ".")))
    [] 0 (parsedItems compiledAgentSchema pkg.agents) ++
  pkg.modelProfiles.flatMap fun id => expect (id ∈ profiles)
    (diagnostic "compiler.model_profile_missing" ("package.modelProfiles." ++ id)
      ("Model profile " ++ id ++ " is not configured."))

/-! ## Documents that are ready -/

/-- An entry of the case writes of a node says which command it is, what it is mapped to, and what that
must be like. -/
structure CaseWrite (entry : Json) : Prop where
  command : ∃ command, entry.get? "commandType" = some command ∧
    (businessCommandTypeSchema.parse command).isSome = true
  payload : isObject (entry.get? "payload") = true
  payloadSchema : isObject (entry.get? "payloadSchema") = true

/-- **Documents that nothing is wrong with.** -/
structure Ready (registered profiles : List String) (pkg : PackageSource) (workflow : WorkflowSource) :
    Prop where
  package : pkg.apiVersion = "harness.factory/domain-package-v1" ∧ pkg.kind = "DomainPackage"
  metadata : pkg.name ≠ "" ∧ pkg.domain ≠ "" ∧ pkg.version ≠ "" ∧ pkg.objective ≠ ""
  contract : workflow.apiVersion = "ladder.dev/v1alpha1" ∧ workflow.kind = "Workflow"
  /-- Nodes have names of their own. -/
  ids : workflow.ids.Nodup
  named : "" ∉ workflow.ids
  kinds : ∀ node ∈ workflow.nodes, node.kind ∈ nodeKinds
  /-- Every node is configured for something that is implemented. -/
  primitives : ∀ node ∈ workflow.nodes, primitiveSupported node.kind (node.config.getD []) = true
  caseWrites : ∀ node ∈ workflow.nodes, ∀ value, node.configured "caseWrites" = some value →
    ∃ writes, value = .arr writes ∧ ∀ entry ∈ writes, CaseWrite entry
  /-- Edges lead from nodes to nodes, and never back. -/
  edges : ∀ edge ∈ workflow.edges, edge.source ∈ workflow.ids ∧ edge.target ∈ workflow.ids
  acyclic : Acyclic fun x y => (x, y) ∈ workflow.ends
  input : ∃ node ∈ workflow.nodes, node.kind = "input"
  output : ∃ node ∈ workflow.nodes, node.kind = "output"
  /-- Nodes that name a runtime target name the same one. -/
  target : ∃ target ∈ runtimeTargets, ∀ node ∈ workflow.nodes, ∀ value,
    node.configured "runtimeTarget" = some value → value = .str target
  /-- What is embedded is well formed, and ids are taken once. -/
  capabilities : ∀ capability ∈ pkg.capabilities,
    (capabilityDefinitionSchema.parse capability).isSome = true
  skills : ∀ skill ∈ pkg.skills, (compiledSkillSchema.parse skill).isSome = true
  skillIds : (parsedIds compiledSkillSchema pkg.skills).Nodup
  agents : ∀ agent ∈ pkg.agents, (compiledAgentSchema.parse agent).isSome = true
  agentIds : (parsedIds compiledAgentSchema pkg.agents).Nodup
  /-- Whatever is referred to is there. -/
  agentSkills : ∀ agent ∈ parsedItems compiledAgentSchema pkg.agents, ∀ id ∈ textsIn "skillIds" agent,
    id ∈ parsedIds compiledSkillSchema pkg.skills
  agentRefs : ∀ node ∈ workflow.nodes, ∀ id ∈ agentRef node, id ∈ parsedIds compiledAgentSchema pkg.agents
  skillRefs : ∀ node ∈ workflow.nodes, ∀ id ∈ nodeSkillRefs node,
    id ∈ parsedIds compiledSkillSchema pkg.skills
  bindings : ∀ binding ∈ pkg.bindings, binding.1 ∈ workflow.ids ∧
    binding.2 ∈ parsedIds capabilityDefinitionSchema pkg.capabilities
  allowed : ∀ skill ∈ parsedItems compiledSkillSchema pkg.skills,
    ∀ id ∈ textsIn "allowedCapabilityIds" skill, Available registered pkg id
  primary : ∀ agent ∈ parsedItems compiledAgentSchema pkg.agents, ∀ id ∈ primaryCapability agent,
    Available registered pkg id
  profiles : ∀ id ∈ pkg.modelProfiles, id ∈ profiles

/-! ## Lists without errors -/

/-- No diagnostic is an error. -/
def NoError (diagnostics : List AuthoringDiagnostic) : Prop := ∀ d ∈ diagnostics, d.severity ≠ .error

@[simp] theorem noError_nil : NoError [] := by simp [NoError]

@[simp] theorem noError_append {ds ds' : List AuthoringDiagnostic} :
    NoError (ds ++ ds') ↔ NoError ds ∧ NoError ds' :=
  List.forall_mem_append

@[simp] theorem noError_diagnostic {code path message : String} :
    ¬ NoError [diagnostic code path message] := by
  simp [NoError, diagnostic]

@[simp] theorem noError_expect {p : Prop} [Decidable p] {code path message : String} :
    NoError (expect p (diagnostic code path message)) ↔ p := by
  unfold expect
  split <;> simp [*]

@[simp] theorem noError_warning {p : Prop} [Decidable p] {code path message : String} :
    NoError (expect p ⟨code, .warning, path, message⟩) := by
  unfold expect
  split <;> simp [NoError]

@[simp] theorem noError_flatMap {α : Type} {f : α → List AuthoringDiagnostic} {as : List α} :
    NoError (as.flatMap f) ↔ ∀ a ∈ as, NoError (f a) := by
  simp only [NoError, List.mem_flatMap]
  exact ⟨fun h a ha d hd => h d ⟨a, ha, hd⟩, fun h d hd => by
    obtain ⟨a, ha, hd⟩ := hd
    exact h a ha d hd⟩

/-- **A walk reports no error if nothing is wrong with any element.** -/
theorem noError_walk {α : Type} {say : List α → ℕ → α → List AuthoringDiagnostic} {P : List α → α → Prop}
    (h : ∀ before index a, NoError (say before index a) ↔ P before a) (as : List α) :
    NoError (walk say [] 0 as) ↔ Each P [] as :=
  forall_mem_walk h [] 0 as

/-- The same, where the elements before do not matter. -/
theorem noError_walk_forall {α : Type} {say : List α → ℕ → α → List AuthoringDiagnostic} {P : α → Prop}
    (h : ∀ before index a, NoError (say before index a) ↔ P a) (as : List α) :
    NoError (walk say [] 0 as) ↔ ∀ a ∈ as, P a := by
  rw [noError_walk h, each_forall]

/-! ## What is said of the parts -/

theorem noError_caseWrite {id : String} {index : ℕ} {entry : Json} :
    NoError (caseWriteDiagnostics id index entry) ↔ CaseWrite entry := by
  unfold caseWriteDiagnostics
  dsimp only
  split
  · simp only [noError_append, noError_expect, and_assoc]
    constructor
    · rintro ⟨hcommand, hpayload, hschema⟩
      obtain ⟨parsed, hparsed⟩ := Option.isSome_iff_exists.mp hcommand
      obtain ⟨command, hget, hparse⟩ := Option.bind_eq_some_iff.mp hparsed
      exact ⟨⟨command, hget, by rw [hparse]; rfl⟩, hpayload, hschema⟩
    · rintro ⟨⟨command, hget, hparse⟩, hpayload, hschema⟩
      exact ⟨by rw [hget, Option.bind_some, hparse], hpayload, hschema⟩
  · next hobject =>
    refine iff_of_false noError_diagnostic ?_
    rintro ⟨⟨command, hget, -⟩, -, -⟩
    -- only objects have members
    cases entry with
    | obj members => exact hobject rfl
    | null | bool | num | str | arr => cases hget

theorem noError_caseWrites {node : WorkflowNode} :
    NoError (validateCaseWrites node) ↔ ∀ value, node.configured "caseWrites" = some value →
      ∃ writes, value = .arr writes ∧ ∀ entry ∈ writes, CaseWrite entry := by
  unfold validateCaseWrites
  cases h : node.configured "caseWrites" with
  | none => simp
  | some value =>
    simp only [Option.some.injEq, forall_eq']
    cases value with
    | arr writes =>
      have hwalk : NoError (walk (fun _ => caseWriteDiagnostics node.id) [] 0 writes) ↔
          ∀ entry ∈ writes, CaseWrite entry := by
        refine noError_walk_forall ?_ writes
        intro before index entry
        exact noError_caseWrite
      simpa using hwalk
    | null | bool | num | str | obj => simp

/-- What is implemented is not complained of, and nothing else. -/
theorem noError_primitive {kind : String} {index : ℕ} {config : List (String × Json)} :
    NoError (validatePrimitiveConfig kind index config) ↔ primitiveSupported kind config = true := by
  have hnil : NoError (validatePrimitiveConfig kind index config) ↔
      validatePrimitiveConfig kind index config = [] := by
    constructor
    · intro h
      by_contra hne
      obtain ⟨d, hd⟩ := List.exists_mem_of_ne_nil _ hne
      refine h d hd ?_
      unfold validatePrimitiveConfig at hd
      simp only [List.mem_append] at hd
      rcases hd with (hd | hd) | hd <;> split at hd <;> simp_all [diagnostic]
    · intro h
      rw [h]
      exact noError_nil
  rw [hnil]
  by_cases hkind : kind ∈ ["transform", "aggregator", "join"]
  · exact validatePrimitiveConfig_eq_nil hkind
  · simp only [List.mem_cons, List.not_mem_nil, or_false, not_or] at hkind
    obtain ⟨htransform, haggregator, hjoin⟩ := hkind
    refine iff_of_true ?_ ?_
    · simp [validatePrimitiveConfig, htransform, haggregator, hjoin]
    · unfold primitiveSupported
      split <;> simp_all

theorem noError_nodes {nodes : List WorkflowNode} : NoError (walk nodeDiagnostics [] 0 nodes) ↔
    ((nodes.map (·.id)).Nodup ∧ "" ∉ nodes.map (·.id)) ∧ (∀ node ∈ nodes, node.kind ∈ nodeKinds) ∧
    (∀ node ∈ nodes, primitiveSupported node.kind (node.config.getD []) = true) ∧
    ∀ node ∈ nodes, ∀ value, node.configured "caseWrites" = some value →
      ∃ writes, value = .arr writes ∧ ∀ entry ∈ writes, CaseWrite entry := by
  have hids : ∀ before : List WorkflowNode,
      before.filterMap (fun node => some node.id) = before.map (·.id) := fun before =>
    congrFun List.filterMap_eq_map' before
  have hsaid : ∀ before index node, NoError (nodeDiagnostics before index node) ↔
      (∀ id ∈ some node.id, id ∉ before.filterMap fun node => some node.id) ∧ node.id ≠ "" ∧
      node.kind ∈ nodeKinds ∧ primitiveSupported node.kind (node.config.getD []) = true ∧
      ∀ value, node.configured "caseWrites" = some value →
        ∃ writes, value = .arr writes ∧ ∀ entry ∈ writes, CaseWrite entry := by
    intro before index node
    simp only [nodeDiagnostics, noError_append, noError_expect, noError_primitive, noError_caseWrites,
      Option.mem_some_iff, forall_eq', hids]
    tauto
  rw [noError_walk hsaid, each_and, each_and, each_and, each_and, each_notMem]
  simp only [each_forall, hids, List.map_nil, List.not_mem_nil, not_false_eq_true, implies_true, and_true]
  have hnamed : (∀ node ∈ nodes, node.id ≠ "") ↔ "" ∉ nodes.map (·.id) := by
    simp only [List.mem_map, not_exists, not_and, ne_eq]
  rw [hnamed, and_assoc]

theorem noError_edges {ids : List String} {edges : List WorkflowEdge} :
    NoError (walk (edgeDiagnostics ids) [] 0 edges) ↔
      ∀ edge ∈ edges, (edge.source ∈ ids ∧ edge.target ∈ ids) ∧ edge.source ≠ edge.target := by
  refine noError_walk_forall ?_ edges
  intro before index edge
  simp only [edgeDiagnostics, noError_append, noError_expect]

theorem targetOf_eq_some {node : WorkflowNode} {target : String} :
    targetOf node = some target ↔
      target ∈ runtimeTargets ∧ node.configured "runtimeTarget" = some (.str target) := by
  rw [targetOf, Option.filter_eq_some_iff, decide_eq_true_eq]
  cases h : node.configured "runtimeTarget" with
  | none => simp [textOf]
  | some value => cases value <;> simp [textOf, and_comm]

/-- A list has no two distinct elements. -/
theorem length_dedup_le_one {texts : List String} :
    texts.dedup.length ≤ 1 ↔ ∀ t ∈ texts, ∀ t' ∈ texts, t = t' := by
  constructor
  · intro h t ht t' ht'
    rw [← List.mem_dedup] at ht ht'
    cases hdedup : texts.dedup with
    | nil =>
      rw [hdedup] at ht
      cases ht
    | cons a rest =>
      have hrest : rest = [] := by
        rw [hdedup, List.length_cons] at h
        exact List.length_eq_zero_iff.mp (by omega)
      rw [hdedup, hrest, List.mem_singleton] at ht ht'
      rw [ht, ht']
  · intro h
    by_contra hlong
    obtain ⟨a, b, rest, hdedup⟩ : ∃ a b rest, texts.dedup = a :: b :: rest := by
      cases hcases : texts.dedup with
      | nil => simp [hcases] at hlong
      | cons a rest =>
        cases rest with
        | nil => simp [hcases] at hlong
        | cons b rest => exact ⟨a, b, rest, rfl⟩
    have hnodup := List.nodup_dedup texts
    have hmem : ∀ t ∈ texts.dedup, t ∈ texts := fun t => List.mem_dedup.mp
    rw [hdedup] at hnodup hmem
    refine (List.nodup_cons.mp hnodup).1 ?_
    rw [h a (hmem a List.mem_cons_self) b (hmem b (List.mem_cons_of_mem _ List.mem_cons_self))]
    exact List.mem_cons_self

theorem noError_targets {nodes : List WorkflowNode} :
    (NoError (walk targetDiagnostics [] 0 nodes) ∧ (nodes.filterMap targetOf).dedup.length ≤ 1) ↔
      ∃ target ∈ runtimeTargets, ∀ node ∈ nodes, ∀ value,
        node.configured "runtimeTarget" = some value → value = .str target := by
  have hsaid : NoError (walk targetDiagnostics [] 0 nodes) ↔
      ∀ node ∈ nodes, (node.configured "runtimeTarget").isSome → (targetOf node).isSome := by
    refine noError_walk_forall ?_ nodes
    intro before index node
    simp only [targetDiagnostics, noError_expect]
  rw [hsaid, length_dedup_le_one]
  constructor
  · rintro ⟨hvalid, hsame⟩
    have hnamed : ∀ node ∈ nodes, ∀ value, node.configured "runtimeTarget" = some value →
        ∃ target ∈ nodes.filterMap targetOf, target ∈ runtimeTargets ∧ value = .str target := by
      intro node hnode value hvalue
      obtain ⟨target, htarget⟩ := Option.isSome_iff_exists.mp (hvalid node hnode (by rw [hvalue]; rfl))
      obtain ⟨hknown, hconfigured⟩ := targetOf_eq_some.mp htarget
      refine ⟨target, List.mem_filterMap.mpr ⟨node, hnode, htarget⟩, hknown, ?_⟩
      exact Option.some.inj (hvalue.symm.trans hconfigured)
    cases htargets : nodes.filterMap targetOf with
    | nil =>
      refine ⟨"local_http", List.mem_cons_self, ?_⟩
      intro node hnode value hvalue
      obtain ⟨target, hmem, -⟩ := hnamed node hnode value hvalue
      rw [htargets] at hmem
      cases hmem
    | cons target targets =>
      have hfirst : target ∈ nodes.filterMap targetOf := by
        rw [htargets]
        exact List.mem_cons_self
      obtain ⟨node, hnode, htarget⟩ := List.mem_filterMap.mp hfirst
      refine ⟨target, (targetOf_eq_some.mp htarget).1, ?_⟩
      intro node' hnode' value hvalue
      obtain ⟨target', hmem, -, rfl⟩ := hnamed node' hnode' value hvalue
      rw [hsame target' hmem target hfirst]
  · rintro ⟨target, htarget, hnodes⟩
    have honly : ∀ t ∈ nodes.filterMap targetOf, t = target := by
      intro t ht
      obtain ⟨node, hnode, hnamed⟩ := List.mem_filterMap.mp ht
      exact Json.str.inj (hnodes node hnode _ (targetOf_eq_some.mp hnamed).2)
    refine ⟨?_, ?_⟩
    · intro node hnode hsome
      obtain ⟨value, hvalue⟩ := Option.isSome_iff_exists.mp hsome
      rw [hnodes node hnode value hvalue] at hvalue
      rw [targetOf_eq_some.mpr ⟨htarget, hvalue⟩]
      rfl
    · intro t ht t' ht'
      rw [honly t ht, honly t' ht']

theorem noError_capabilities {issue : Schema → Json → String} {capabilities : List Json} :
    NoError (walk (capabilityDiagnostics issue) [] 0 capabilities) ↔
      ∀ capability ∈ capabilities, (capabilityDefinitionSchema.parse capability).isSome = true := by
  refine noError_walk_forall ?_ capabilities
  intro before index capability
  simp only [capabilityDiagnostics, noError_expect]

/-- Items that a schema accepts, under ids of their own. -/
theorem each_parsed {schema : Schema} {items : List Json} :
    Each (fun before item => (schema.parse item).isSome = true ∧
      ∀ id ∈ (schema.parse item).map (text "id"), id ∉ parsedIds schema before) [] items ↔
    (∀ item ∈ items, (schema.parse item).isSome = true) ∧ (parsedIds schema items).Nodup := by
  have hkeys := @each_notMem _ _ (fun item => (schema.parse item).map (text "id")) [] items
  rw [each_and, each_forall]
  refine and_congr_right fun _ => ?_
  simpa [parsedIds] using hkeys

theorem noError_skills {issue : Schema → Json → String} {skills : List Json} :
    NoError (walk (skillDiagnostics issue) [] 0 skills) ↔
      (∀ skill ∈ skills, (compiledSkillSchema.parse skill).isSome = true) ∧
      (parsedIds compiledSkillSchema skills).Nodup := by
  rw [← each_parsed]
  refine noError_walk ?_ skills
  intro before index skill
  rw [skillDiagnostics]
  cases compiledSkillSchema.parse skill <;> simp

theorem noError_agents {issue : Schema → Json → String} {skillIds : List String} {agents : List Json} :
    NoError (walk (agentDiagnostics issue skillIds) [] 0 agents) ↔
      ((∀ agent ∈ agents, (compiledAgentSchema.parse agent).isSome = true) ∧
        (parsedIds compiledAgentSchema agents).Nodup) ∧
      ∀ agent ∈ parsedItems compiledAgentSchema agents, ∀ id ∈ textsIn "skillIds" agent,
        id ∈ skillIds := by
  have hsaid : ∀ before index agent, NoError (agentDiagnostics issue skillIds before index agent) ↔
      ((compiledAgentSchema.parse agent).isSome = true ∧
        ∀ id ∈ (compiledAgentSchema.parse agent).map (text "id"),
          id ∉ parsedIds compiledAgentSchema before) ∧
      ∀ parsed ∈ compiledAgentSchema.parse agent, ∀ id ∈ textsIn "skillIds" parsed, id ∈ skillIds := by
    intro before index agent
    rw [agentDiagnostics]
    cases compiledAgentSchema.parse agent <;> simp
  rw [noError_walk hsaid, each_and, each_parsed, each_forall]
  refine and_congr_right fun _ => ?_
  simp only [parsedItems, List.mem_filterMap]
  constructor
  · rintro h parsed ⟨agent, hagent, hparsed⟩
    exact h agent hagent parsed hparsed
  · intro h agent hagent parsed hparsed
    exact h parsed ⟨agent, hagent, hparsed⟩

theorem noError_references {agentIds skillIds : List String} {nodes : List WorkflowNode} :
    NoError (walk (referenceDiagnostics agentIds skillIds) [] 0 nodes) ↔
      (∀ node ∈ nodes, ∀ id ∈ agentRef node, id ∈ agentIds) ∧
      ∀ node ∈ nodes, ∀ id ∈ nodeSkillRefs node, id ∈ skillIds := by
  have hsaid : ∀ before index node, NoError (referenceDiagnostics agentIds skillIds before index node) ↔
      (∀ id ∈ agentRef node, id ∈ agentIds) ∧ ∀ id ∈ nodeSkillRefs node, id ∈ skillIds := by
    intro before index node
    simp only [referenceDiagnostics, noError_append, noError_flatMap, noError_expect, Option.mem_toList,
      Option.mem_def]
  rw [noError_walk_forall hsaid]
  exact ⟨fun h => ⟨fun node hnode => (h node hnode).1, fun node hnode => (h node hnode).2⟩,
    fun h node hnode => ⟨h.1 node hnode, h.2 node hnode⟩⟩

theorem noError_bindings {ids : List String} {capabilities : List Json}
    {bindings : List (String × String)} :
    NoError (bindings.flatMap (bindingDiagnostics ids capabilities)) ↔
      ∀ binding ∈ bindings, binding.1 ∈ ids := by
  simp [bindingDiagnostics]

/-! ## What the editor and the compiler say -/

section

variable {registered profiles : List String} {pkg : PackageSource} {workflow : WorkflowSource}

theorem noError_compiler : NoError (compilerDiagnostics registered profiles pkg) ↔
    (∀ binding ∈ pkg.bindings, binding.2 ∈ parsedIds capabilityDefinitionSchema pkg.capabilities) ∧
    (∀ skill ∈ parsedItems compiledSkillSchema pkg.skills,
      ∀ id ∈ textsIn "allowedCapabilityIds" skill, Available registered pkg id) ∧
    (∀ agent ∈ parsedItems compiledAgentSchema pkg.agents, ∀ id ∈ primaryCapability agent,
      Available registered pkg id) ∧
    ∀ id ∈ pkg.modelProfiles, id ∈ profiles := by
  have hbinding : ∀ binding : String × String, NoError
      (if Available registered pkg binding.2 then
        expect (binding.2 ∈ parsedIds capabilityDefinitionSchema pkg.capabilities)
          (diagnostic "compiler.capability_not_embedded" ("package.bindings." ++ binding.1)
            ("Capability " ++ binding.2 ++ " must be materialized into the package before compilation."))
      else [diagnostic "compiler.capability_unresolved" ("package.bindings." ++ binding.1)
        ("Capability " ++ binding.2 ++ " is neither embedded nor registered in the gateway.")]) ↔
      binding.2 ∈ parsedIds capabilityDefinitionSchema pkg.capabilities := by
    intro binding
    split
    · exact noError_expect
    · next havailable => exact iff_of_false noError_diagnostic fun hmem => havailable (.inr hmem)
  unfold compilerDiagnostics
  simp only [noError_append, noError_flatMap, hbinding, noError_expect, and_assoc]
  rw [noError_walk_forall (P := fun skill => ∀ id ∈ textsIn "allowedCapabilityIds" skill,
      Available registered pkg id) (fun _ _ _ => by simp only [noError_flatMap, noError_expect]),
    noError_walk_forall (P := fun agent => ∀ id ∈ primaryCapability agent, Available registered pkg id)
      (fun _ _ _ => by simp only [noError_flatMap, noError_expect, Option.mem_toList, Option.mem_def])]

/-- The order of distinct nodes. -/
theorem order_eq (hids : workflow.ids.Nodup) (hnamed : "" ∉ workflow.ids) :
    topologicalOrder (2 * workflow.ids.length) workflow.ids workflow.ends = some workflow.order := by
  obtain ⟨order, horder, -⟩ := topologicalOrder_order hids hnamed workflow.ends
  have h := horder (2 * workflow.ids.length) (by omega)
  rw [WorkflowSource.order, h, Option.getD_some]

theorem resolved_eq
    (hedges : ∀ edge ∈ workflow.edges, edge.source ∈ workflow.ids ∧ edge.target ∈ workflow.ids) :
    Resolved workflow.ids workflow.ends = workflow.ends := by
  refine List.filter_eq_self.mpr ?_
  intro ends hends
  obtain ⟨edge, hedge, rfl⟩ := List.mem_map.mp hends
  exact decide_eq_true (hedges edge hedge)

theorem noError_graphCycle {ids order : List String} :
    NoError (graphCycle ids order) ↔ graphCycle ids order = [] := by
  unfold graphCycle
  split <;> simp

/-- **Nothing is wrong exactly with documents that are ready.** -/
theorem diagnostics_iff {issue : Schema → Json → String} :
    NoError (analyzeAuthoringSources issue pkg workflow ++ compilerDiagnostics registered profiles pkg) ↔
      Ready registered profiles pkg workflow := by
  unfold analyzeAuthoringSources
  simp only [List.append_assoc, noError_append, noError_expect, noError_nodes, noError_edges,
    noError_capabilities, noError_skills, noError_agents, noError_references, noError_bindings,
    noError_compiler, noError_graphCycle]
  constructor
  · rintro ⟨hpackage, hmetadata, hcontract, ⟨⟨hids, hnamed⟩, hkinds, hprimitives, hcaseWrites⟩, hedges,
      htargets, hone, hcycle, hinput, houtput, hcapabilities, ⟨hskills, hskillIds⟩,
      ⟨⟨hagents, hagentIds⟩, hagentSkills⟩, ⟨hagentRefs, hskillRefs⟩, hnodes, hembedded, hallowed,
      hprimary, hprofiles⟩
    have hends : ∀ edge ∈ workflow.edges, edge.source ∈ workflow.ids ∧ edge.target ∈ workflow.ids :=
      fun edge hedge => (hedges edge hedge).1
    have hacyclic : Acyclic fun x y => (x, y) ∈ Resolved workflow.ids workflow.ends :=
      (graphCycle_eq_nil hids hnamed (order_eq hids hnamed)).mp hcycle
    rw [resolved_eq hends] at hacyclic
    exact {
      package := hpackage
      metadata := hmetadata
      contract := hcontract
      ids := hids
      named := hnamed
      kinds := hkinds
      primitives := hprimitives
      caseWrites := hcaseWrites
      edges := hends
      acyclic := hacyclic
      input := hinput
      output := houtput
      target := noError_targets.mp ⟨htargets, hone⟩
      capabilities := hcapabilities
      skills := hskills
      skillIds := hskillIds
      agents := hagents
      agentIds := hagentIds
      agentSkills := hagentSkills
      agentRefs := hagentRefs
      skillRefs := hskillRefs
      bindings := fun binding hbinding => ⟨hnodes binding hbinding, hembedded binding hbinding⟩
      allowed := hallowed
      primary := hprimary
      profiles := hprofiles }
  · intro h
    obtain ⟨htargets, hone⟩ := noError_targets.mpr h.target
    have hcycle : graphCycle workflow.ids workflow.order = [] := by
      rw [graphCycle_eq_nil h.ids h.named (order_eq h.ids h.named), resolved_eq h.edges]
      exact h.acyclic
    have hedges : ∀ edge ∈ workflow.edges, (edge.source ∈ workflow.ids ∧ edge.target ∈ workflow.ids) ∧
        edge.source ≠ edge.target := by
      intro edge hedge
      refine ⟨h.edges edge hedge, ?_⟩
      intro hself
      have hmem : (edge.source, edge.target) ∈ workflow.ends := List.mem_map.mpr ⟨edge, hedge, rfl⟩
      rw [← hself] at hmem
      exact h.acyclic edge.source (.single hmem)
    exact ⟨h.package, h.metadata, h.contract, ⟨⟨h.ids, h.named⟩, h.kinds, h.primitives, h.caseWrites⟩,
      hedges, htargets, hone, hcycle, h.input, h.output, h.capabilities, ⟨h.skills, h.skillIds⟩,
      ⟨⟨h.agents, h.agentIds⟩, h.agentSkills⟩, ⟨h.agentRefs, h.skillRefs⟩,
      fun b hb => (h.bindings b hb).1, fun b hb => (h.bindings b hb).2, h.allowed, h.primary,
      h.profiles⟩

end

/-- The documents that `defaultAuthoringSources` writes. -/
def defaultPackage : PackageSource where
  apiVersion := "harness.factory/domain-package-v1"
  kind := "DomainPackage"
  name := "new-domain-harness"
  version := "0.1.0"
  domain := "new_domain"
  objective := "Produce a governed domain outcome."
  modelProfiles := ["model.standard.v1"]
  skills := []
  agents := []
  capabilities := []
  bindings := []

@[inherit_doc defaultPackage]
def defaultWorkflow : WorkflowSource where
  apiVersion := "ladder.dev/v1alpha1"
  kind := "Workflow"
  nodes := [⟨"intake", "input", some [("caseWrites", .arr [])]⟩,
    ⟨"result", "output", some [("caseWrites", .arr [])]⟩]
  edges := [⟨"e1", "intake", "result"⟩]

/-- A new draft is ready to be compiled. -/
example : (analyzeAuthoringSources (fun _ _ => "") defaultPackage defaultWorkflow ++
    compilerDiagnostics [] ["model.standard.v1"] defaultPackage).length = 0 := by
  decide +kernel

/-! ## Compiling -/

/-- What the sources of a draft parse to: the documents, and what they are on the whole. -/
structure Reading where
  pkg : PackageSource
  workflow : WorkflowSource
  parsedPackage : Json
  parsedWorkflow : Json

section

variable {S : PlanSchema} (read : Sources → Except String Reading) (issue : Schema → Json → String)
  (profiles : List String) (tools : AuthoringTools) (sha256 : List Char → String)

/-- The ids that are registered with the gateway. -/
def registeredIds (registry : Registry) : List String := registry.capabilities.map (text "id")

/-- What is said of a draft before the compiler is run. -/
def Reading.diagnostics (reading : Reading) (registry : Registry) : List AuthoringDiagnostic :=
  analyzeAuthoringSources issue reading.pkg reading.workflow ++
    compilerDiagnostics (registeredIds registry) profiles reading.pkg

/-- What `analyzeAuthoringSources` returns. -/
def Reading.analysis (reading : Reading) : Analysis where
  parsedPackage := reading.parsedPackage
  parsedWorkflow := reading.parsedWorkflow
  diagnostics := analyzeAuthoringSources issue reading.pkg reading.workflow
  name := reading.pkg.name
  domain := reading.pkg.domain
  version := reading.pkg.version

/-- What the compiler is not run for, if the sources can be read. -/
def readDiagnostics (sources : Sources) (registry : Registry) : List AuthoringDiagnostic :=
  match read sources with
  | .ok reading => compilerDiagnostics (registeredIds registry) profiles reading.pkg
  | .error _ => []

/-- Tools that analyze the documents which sources parse to. -/
def documentTools : AuthoringTools :=
  { tools with
    analyzeAuthoringSources := fun sources => (read sources).map (Reading.analysis issue)
    compilerDiagnostics := fun sources _ registry => readDiagnostics read profiles sources registry }

theorem noError_iff_any {ds : List AuthoringDiagnostic} :
    NoError ds ↔ (ds.any fun item => item.severity = .error) = false := by
  simp [NoError, List.any_eq_false]

/-- **A draft is compiled exactly if nothing is wrong with its documents** and the compiler writes a plan
that is accepted. -/
theorem compiles_iff_ready {sources : Sources} {registry : Registry} {compilation : Compilation S}
    {diagnostics : List AuthoringDiagnostic} :
    compileAuthoringDraft S (documentTools read issue profiles tools) sha256 sources registry =
        .ok (some compilation, diagnostics) ↔
      ∃ reading plan, read sources = .ok reading ∧
        Ready (registeredIds registry) profiles reading.pkg reading.workflow ∧
        compileWithHarnessc S tools sha256 sources = .ok plan ∧ compilation = ⟨plan, sources⟩ ∧
        diagnostics = reading.diagnostics issue profiles registry ++ [planEmitted plan.val] := by
  have hanalysis : (documentTools read issue profiles tools).analyzeAuthoringSources sources =
    (read sources).map (Reading.analysis issue) := rfl
  have hcompiler : ∀ analysis,
    (documentTools read issue profiles tools).compilerDiagnostics sources analysis registry =
      readDiagnostics read profiles sources registry := fun analysis => rfl
  rw [compileAuthoringDraft, hanalysis]
  cases hread : read sources with
  | error message =>
    refine iff_of_false nofun ?_
    rintro ⟨reading, -, hok, -⟩
    cases hok
  | ok reading =>
    have hmap : (Except.ok reading : Except String Reading).map (Reading.analysis issue) =
      .ok (reading.analysis issue) := rfl
    have hdiagnostics : (reading.analysis issue).diagnostics ++
        readDiagnostics read profiles sources registry = reading.diagnostics issue profiles registry := by
      rw [readDiagnostics, hread]
      rfl
    rw [hmap, Checks.ok_bind]
    dsimp only
    rw [hcompiler, hdiagnostics]
    have hready :
        ((reading.diagnostics issue profiles registry).any fun item => item.severity = .error) = false ↔
        Ready (registeredIds registry) profiles reading.pkg reading.workflow := by
      rw [← noError_iff_any, Reading.diagnostics, diagnostics_iff]
    split
    · next herror =>
      refine iff_of_false nofun ?_
      rintro ⟨reading', plan, hok, hisReady, -⟩
      obtain rfl := Except.ok.inj hok
      rw [hready.mpr hisReady] at herror
      cases herror
    · next hnone =>
      have hisReady := hready.mp (Bool.eq_false_of_not_eq_true hnone)
      have hsame : compileWithHarnessc S (documentTools read issue profiles tools) sha256 sources =
        compileWithHarnessc S tools sha256 sources := rfl
      rw [hsame]
      cases hplan : compileWithHarnessc S tools sha256 sources with
      | error failure =>
        refine iff_of_false nofun ?_
        rintro ⟨reading', plan, -, -, hok, -⟩
        cases hok
      | ok plan =>
        constructor
        · intro h
          obtain ⟨hcompilation, hall⟩ := Prod.ext_iff.mp (Except.ok.inj h)
          exact ⟨reading, plan, rfl, hisReady, rfl, (Option.some.inj hcompilation).symm, hall.symm⟩
        · rintro ⟨reading', plan', hok, -, hplan', hcompilation, hall⟩
          rw [← Except.ok.inj hok] at hall
          rw [← Except.ok.inj hplan'] at hcompilation hall
          rw [hcompilation, hall]
          rfl

end

end ControlApi

end HarnessFramework
