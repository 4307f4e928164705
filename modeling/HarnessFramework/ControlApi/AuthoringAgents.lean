import HarnessFramework.Contracts.Plan
import HarnessFramework.Library.Checks
import HarnessFramework.Library.JsValue
import HarnessFramework.RuntimeCore.Conditions

/-!
# Agents in authoring sources

`applyAgentToAuthoringSources` and `materializeRegisteredContracts` of
`apps/control-api/src/authoring-agents.ts`. They parse a package and a workflow, change the documents in
place, and write them again. A document is a tree: what is parsed shares nothing, and an array that is
not in it is lost.

The YAML library is a parameter, that reads back what it wrote. Reading a property of `null` throws; of
anything else that is no object it is `undefined`.

## Main definitions

* `Yaml` — the library
* `AgentRegistration`, `SkillRegistration`, `CapabilityRegistration` — entries of the registries
* `attachNode`, `attachContracts`, `applyAgentToAuthoringSources`
* `collectReferences`, `fillNode`, `bindNode`, `materializeRegisteredContracts`
-/

namespace HarnessFramework

namespace ControlApi

open Checks

/-- **Parsing and writing YAML.** -/
structure Yaml where
  parse : String → Except String Json
  stringify : Json → String
  parse_stringify : ∀ document, parse (stringify document) = .ok document

/-! ## Reading documents -/

/-- What reading a property of `null` throws. -/
def nullRead (key : String) : String := "Cannot read properties of null (reading '" ++ key ++ "')"

/-- `value[key]`, where `none` is `undefined`. -/
def property (key : String) : Json → Except String (Option Json)
  | .null => .error (nullRead key)
  | .obj members => .ok (Members.lookup key members)
  | _ => .ok none

/-- `object(value)`. -/
def object? : Json → Option (List (String × Json))
  | .obj members => some members
  | _ => none

/-- `object(value) ? value : {}`. -/
def membersOf : Option Json → List (String × Json)
  | some (.obj members) => members
  | _ => []

/-- `Array.isArray(value) ? value : []`. -/
def itemsOf : Option Json → List Json
  | some (.arr items) => items
  | _ => []

/-- `typeof value === "string" ? value : undefined`. -/
def textOf : Option Json → Option String
  | some (.str text) => some text
  | _ => none

/-! ## Registries -/

/-- `agentRegistrationSchema`, without the source and the status, which are not compiled. -/
structure AgentRegistration where
  id : String
  name : String
  description : String
  role : String
  prompt : String
  modelProfileId : String
  runtimeTarget : String
  skillIds : List String
  caseWrites : List Json
  primaryCapabilityId : Option String
  inputSchema : List (String × Json)
  outputSchema : List (String × Json)
  version : String
  id_ne : id ≠ ""

/-- `skillRegistrationSchema`, without the source and the status, which are not compiled. -/
structure SkillRegistration where
  id : String
  name : String
  description : String
  instructions : String
  allowedCapabilityIds : List String
  version : String

/-- `capabilityRegistrationSchema`, without the members that are not compiled. -/
structure CapabilityRegistration extends CapabilityDefinition where
  adapterBindingId : String
  inputSchema : List (String × Json)
  outputSchema : List (String × Json)
  timeoutMs : ℕ
  maxAttempts : ℕ
  idempotent : Bool

/-- The text of a kind. -/
def kindText : CapabilityKind → String
  | .model => "model"
  | .tool => "tool"
  | .deterministic => "deterministic"

/-- An array of strings. -/
def texts (items : List String) : Json := .arr (items.map .str)

/-- `compiledSkill`. -/
def compiledSkill (skill : SkillRegistration) : Json := .obj
  [("id", .str skill.id), ("name", .str skill.name), ("description", .str skill.description),
    ("instructions", .str skill.instructions),
    ("allowedCapabilityIds", texts skill.allowedCapabilityIds), ("version", .str skill.version)]

/-- `compiledAgent`. -/
def compiledAgent (agent : AgentRegistration) : Json := .obj <|
  [("id", .str agent.id), ("name", .str agent.name), ("description", .str agent.description),
    ("role", .str agent.role), ("prompt", .str agent.prompt),
    ("modelProfileId", .str agent.modelProfileId), ("runtimeTarget", .str agent.runtimeTarget),
    ("skillIds", texts agent.skillIds), ("caseWrites", .arr agent.caseWrites)] ++
  (agent.primaryCapabilityId.map fun id => ("primaryCapabilityId", Json.str id)).toList ++
  [("inputSchema", .obj agent.inputSchema), ("outputSchema", .obj agent.outputSchema),
    ("version", .str agent.version)]

/-- `compiledCapability`. -/
def compiledCapability (capability : CapabilityRegistration) : Json := .obj
  [("id", .str capability.id), ("kind", .str (kindText capability.kind)),
    ("effect", .str capability.effect.text), ("adapterBindingId", .str capability.adapterBindingId),
    ("inputSchema", .obj capability.inputSchema), ("outputSchema", .obj capability.outputSchema),
    ("timeoutMs", .nat capability.timeoutMs), ("maxAttempts", .nat capability.maxAttempts),
    ("idempotent", .bool capability.idempotent)]

/-- The items whose id is none of some ids. -/
def withoutIds (ids : List String) : List Json → Except String (List Json)
  | [] => .ok []
  | item :: items => do
    let id ← property "id" item
    let rest ← withoutIds ids items
    return if (textOf id).any (· ∈ ids) then rest else item :: rest

/-- `upsertById`, of additions under their ids. -/
def upsertById (items : List Json) (additions : List (String × Json)) : Except String (List Json) := do
  let kept ← withoutIds (additions.map Prod.fst) items
  return kept ++ additions.map Prod.snd

/-! ## Attaching an agent -/

inductive AttachMode
  | replace
  | insertAfter
deriving DecidableEq

/-- The input of `applyAgentToAuthoringSources`, without the sources. -/
structure AgentAttachment where
  agent : AgentRegistration
  skills : List SkillRegistration
  nodeId : String
  mode : AttachMode
  newNodeId : Option String

/-- A package and a workflow. -/
structure AuthoringSources where
  packageSource : String
  workflowSource : String

/-- `text.trim()`. -/
def trim (cs : List Char) : List Char := (cs.dropWhile RuntimeCore.isSpace).rdropWhile RuntimeCore.isSpace

/-- `text.toLowerCase()`, as far as it yields letters without accents. -/
def lowerChar (c : Char) : List Char :=
  if 'A' ≤ c ∧ c ≤ 'Z' then [Char.ofNat (c.toNat + 32)]
  else if c.toNat = 0x212A then ['k']
  else if c.toNat = 0x130 then ['i', Char.ofNat 0x307]
  else [c]

/-- A character of `[a-z0-9-]`. -/
def isIdChar (c : Char) : Bool := 'a' ≤ c && c ≤ 'z' || '0' ≤ c && c ≤ '9' || c = '-'

/-- `text.replace(/[^a-z0-9-]+/g, "-")`, after a character that was replaced or not. -/
def dashed : Bool → List Char → List Char
  | _, [] => []
  | replaced, c :: cs =>
    if isIdChar c then c :: dashed false cs
    else if replaced then dashed true cs
    else '-' :: dashed true cs

/-- The id of the node that an agent is attached as. -/
def attachedId (input : AgentAttachment) : String :=
  match input.mode with
  | .replace => input.nodeId
  | .insertAfter =>
    let trimmed := trim ((input.newNodeId.map String.toList).getD [])
    let chosen := if trimmed = [] then input.nodeId.toList ++ '-' :: input.agent.name.toList else trimmed
    let slug := dashed false (chosen.flatMap lowerChar)
    String.ofList ((slug.dropWhile (· = '-')).rdropWhile (· = '-'))

/-- The nodes before and after the first that is selected. -/
structure NodeSplit where
  before : List Json
  selected : List (String × Json)
  after : List Json

/-- `nodes.findIndex((node) => node.id === nodeId)`. -/
def findNode (nodeId : String) : List Json → Except String (Option NodeSplit)
  | [] => .ok none
  | node :: nodes => do
    let id ← property "id" node
    if id = some (.str nodeId) then return some ⟨[], membersOf (some node), nodes⟩
    else
      let split ← findNode nodeId nodes
      return split.map fun split => { split with before := node :: split.before }

/-- `nodes.some((node) => node.id === nodeId)`. -/
def hasNode (nodeId : String) : List Json → Except String Bool
  | [] => .ok false
  | node :: nodes => do
    let id ← property "id" node
    if id = some (.str nodeId) then return true else hasNode nodeId nodes

/-- The node of an agent, over the members of the node it replaces. -/
def agentNode (agent : AgentRegistration) (nodeId : String) (replaced priorConfig : List (String × Json)) :
    Json := .obj <| Members.spread replaced
  [("id", .str nodeId), ("kind", .str "evaluate"), ("name", .str agent.name),
    ("summary", .str agent.description), ("role", .str agent.role), ("prompt", .str agent.prompt),
    ("inputSchema", .obj agent.inputSchema), ("outputSchema", .obj agent.outputSchema),
    ("config", .obj <| Members.spread (Members.spread [("caseWrites", .arr agent.caseWrites)] priorConfig)
      [("agentRef", .str agent.id), ("agentVersion", .str agent.version),
        ("skillRefs", texts agent.skillIds), ("modelProfileId", .str agent.modelProfileId),
        ("runtimeTarget", .str agent.runtimeTarget)])]

/-- An edge, which leaves the attached node instead if it left the selected one. -/
def moveEdge (nodeId attachedNodeId : String) (edge : Json) : Except String Json := do
  let source ← property "from" edge
  return if source = some (.str nodeId) then
    .obj (Members.set "from" (.str attachedNodeId) (membersOf (some edge)))
  else edge

/-- The id of the edge to an attached node. -/
def attachedEdgeId (nodeId attachedNodeId : String) : String := s!"edge-{nodeId}-{attachedNodeId}"

/-- The edge to an attached node. -/
def attachedEdge (nodeId attachedNodeId : String) : Json := .obj
  [("id", .str (attachedEdgeId nodeId attachedNodeId)), ("from", .str nodeId),
    ("to", .str attachedNodeId), ("kind", .str "data")]

/-- The members of `workflow.spec` after an agent was attached, and the id of its node. Edges that are no
array are not in the workflow, and what is done to them is lost. -/
def attachNode (input : AgentAttachment) (spec : List (String × Json)) :
    Except String (List (String × Json) × String) := do
  let nodes := itemsOf (Members.lookup "nodes" spec)
  let split ← findNode input.nodeId nodes
  let split ← orThrow "authoring.agent_node_not_found" split
  let kind := Members.lookup "kind" split.selected
  ensure (¬(kind = some (.str "input") ∧ input.mode = .replace ∨ kind = some (.str "output")))
    "authoring.agent_node_kind_protected"
  let attachedNodeId := attachedId input
  ensure (attachedNodeId ≠ "") "authoring.agent_node_id_invalid"
  match input.mode with
  | .replace =>
    let priorConfig := membersOf (Members.lookup "config" split.selected)
    let node := agentNode input.agent attachedNodeId split.selected priorConfig
    return (Members.set "nodes" (.arr (split.before ++ node :: split.after)) spec, attachedNodeId)
  | .insertAfter =>
    let taken ← hasNode attachedNodeId nodes
    ensure (taken = false) "authoring.agent_node_id_invalid"
    let node := agentNode input.agent attachedNodeId [] []
    let spec := Members.set "nodes" (.arr (split.before ++ .obj split.selected :: node :: split.after)) spec
    match Members.lookup "edges" spec with
    | some (.arr edges) =>
      let edges ← edges.mapM (moveEdge input.nodeId attachedNodeId)
      return (Members.set "edges" (.arr (edges ++ [attachedEdge input.nodeId attachedNodeId])) spec,
        attachedNodeId)
    | _ => return (spec, attachedNodeId)

/-- The package after the contracts of an agent were embedded. -/
def attachContracts (input : AgentAttachment) (attachedNodeId : String) (pkg : List (String × Json)) :
    Except String (List (String × Json)) := do
  let agent := input.agent
  let modelProfiles := itemsOf (Members.lookup "modelProfiles" pkg)
  let pkg := if Json.str agent.modelProfileId ∈ modelProfiles then pkg
    else Members.set "modelProfiles" (.arr (modelProfiles ++ [.str agent.modelProfileId])) pkg
  let referencedSkills ← agent.skillIds.mapM fun skillId => do
    let skill ← orThrow s!"authoring.agent_skill_not_registered:{skillId}"
      (input.skills.find? (·.id = skillId))
    return (skill.id, compiledSkill skill)
  let skills ← upsertById (itemsOf (Members.lookup "skills" pkg)) referencedSkills
  let agents ← upsertById (itemsOf (Members.lookup "agents" pkg)) [(agent.id, compiledAgent agent)]
  let pkg := Members.set "agents" (.arr agents) (Members.set "skills" (.arr skills) pkg)
  return match agent.primaryCapabilityId.filter (· ≠ "") with
    | some capabilityId => Members.set "bindings"
        (.obj (Members.set attachedNodeId (.str capabilityId) (membersOf (Members.lookup "bindings" pkg))))
        pkg
    | none => pkg

/-- `applyAgentToAuthoringSources`: the new sources, and the id of the attached node. -/
def applyAgentToAuthoringSources (yaml : Yaml) (sources : AuthoringSources) (input : AgentAttachment) :
    Except String (AuthoringSources × String) := do
  let pkg ← yaml.parse sources.packageSource
  let workflow ← yaml.parse sources.workflowSource
  let pkg ← orThrow "authoring.agent_source_invalid" (object? pkg)
  let workflow ← orThrow "authoring.agent_source_invalid" (object? workflow)
  let spec ← orThrow "authoring.agent_source_invalid" ((Members.lookup "spec" workflow).bind object?)
  let (spec, attachedNodeId) ← attachNode input spec
  let pkg ← attachContracts input attachedNodeId pkg
  return (⟨yaml.stringify (.obj pkg), yaml.stringify (.obj (Members.set "spec" (.obj spec) workflow))⟩,
    attachedNodeId)

/-- Attaching an agent to documents that were written. -/
theorem applyAgent_eq {yaml : Yaml} {input : AgentAttachment} {pkg pkg' workflow spec spec' : List (String × Json)}
    {attachedNodeId : String} (hspec : Members.lookup "spec" workflow = some (.obj spec))
    (hnode : attachNode input spec = .ok (spec', attachedNodeId))
    (hcontracts : attachContracts input attachedNodeId pkg = .ok pkg') :
    applyAgentToAuthoringSources yaml
        ⟨yaml.stringify (.obj pkg), yaml.stringify (.obj workflow)⟩ input
      = .ok (⟨yaml.stringify (.obj pkg'), yaml.stringify (.obj (Members.set "spec" (.obj spec') workflow))⟩,
          attachedNodeId) := by
  rw [applyAgentToAuthoringSources, yaml.parse_stringify, yaml.parse_stringify, ok_bind, ok_bind]
  simp only [object?, orThrow, hspec, Option.bind_some, ok_bind, hnode, hcontracts]
  rfl

/-! ## Materializing registered contracts -/

/-- The registries that contracts are taken from. -/
structure Registries where
  agents : List AgentRegistration
  skills : List SkillRegistration
  capabilities : List CapabilityRegistration

/-- The entry of `new Map(entries.map((entry) => [entry.id, entry]))` under an id. -/
def registered {α : Type} (idOf : α → String) (entries : List α) (id : String) : Option α :=
  entries.reverse.find? (idOf · = id)

/-- The registered entries under ids that are not embedded, each once. -/
def missing {α : Type} (idOf : α → String) (entries : List α) (embedded ids : List String) : List α :=
  (ids.eraseDups.filter (· ∉ embedded)).filterMap (registered idOf entries)

/-- The ids of items that are strings. -/
def embeddedIds (items : List Json) : Except String (List String) := do
  let ids ← items.mapM (property "id")
  return ids.filterMap textOf

/-- `typeof config.agentRef === "string" ? config.agentRef : null`, where it is not empty. -/
def agentRefOf (config : List (String × Json)) : Option String :=
  (textOf (Members.lookup "agentRef" config)).filter (· ≠ "")

/-- The strings of `config.skillRefs`, if it is an array. -/
def skillRefsOf (config : List (String × Json)) : List String :=
  (itemsOf (Members.lookup "skillRefs" config)).filterMap fun skillId => textOf (some skillId)

/-- The registered agents and skills that the nodes need and the package does not have. Agents that are
missing pull in their skills. -/
def collectReferences (registries : Registries) (pkg : List (String × Json)) (nodes : List Json) :
    Except String (List AgentRegistration × List SkillRegistration) := do
  let embeddedAgentIds ← embeddedIds (itemsOf (Members.lookup "agents" pkg))
  let embeddedSkillIds ← embeddedIds (itemsOf (Members.lookup "skills" pkg))
  let configs ← nodes.mapM (property "config")
  let configs := configs.map membersOf
  let agents := missing (·.id) registries.agents embeddedAgentIds (configs.filterMap agentRefOf)
  let requiredSkillIds := configs.flatMap skillRefsOf ++ agents.flatMap (·.skillIds)
  return (agents, missing (·.id) registries.skills embeddedSkillIds requiredSkillIds)

/-- The agent among the missing ones that a node refers to. -/
def missingAgent (agents : List AgentRegistration) (config : List (String × Json)) : Option AgentRegistration :=
  (agentRefOf config).bind fun agentRef => agents.find? (·.id = agentRef)

/-- `object(value) ? value : members`. -/
def orObject (members : List (String × Json)) (value : Option Json) : Json :=
  .obj ((value.bind object?).getD members)

/-- `typeof value === "string" ? value : text`. -/
def orText (text : String) (value : Option Json) : Json := .str ((textOf value).getD text)

/-- `Array.isArray(value) ? value : items`. -/
def orItems (items : List Json) : Option Json → Json
  | some (.arr items') => .arr items'
  | _ => .arr items

/-- The members of a node that refers to an agent, with what the agent says where nothing is authored. -/
def fillMembers (agent : AgentRegistration) (node : List (String × Json)) : List (String × Json) :=
  let config := membersOf (Members.lookup "config" node)
  let node := Members.set "inputSchema" (orObject agent.inputSchema (Members.lookup "inputSchema" node)) node
  let node := Members.set "outputSchema" (orObject agent.outputSchema (Members.lookup "outputSchema" node)) node
  let node := Members.set "role" (orText agent.role (Members.lookup "role" node)) node
  let node := Members.set "prompt" (orText agent.prompt (Members.lookup "prompt" node)) node
  Members.set "config" (.obj (Members.spread config
    [("caseWrites", orItems agent.caseWrites (Members.lookup "caseWrites" config)),
      ("skillRefs", orItems (agent.skillIds.map .str) (Members.lookup "skillRefs" config)),
      ("modelProfileId", orText agent.modelProfileId (Members.lookup "modelProfileId" config)),
      ("runtimeTarget", orText agent.runtimeTarget (Members.lookup "runtimeTarget" config))])) node

/-- A node after the contracts of missing agents were embedded. -/
def fillNode (agents : List AgentRegistration) : Json → Json
  | .obj node =>
    match missingAgent agents (membersOf (Members.lookup "config" node)) with
    | some agent => .obj (fillMembers agent node)
    | none => .obj node
  | node => node

/-- `String(node.id)`. -/
def idText : Option Json → String
  | some id => String.ofList id.toJsString
  | none => "undefined"

/-- The bindings with the primary capability of the missing agent that a node refers to, unless a string is
bound already. -/
def bindNode (agents : List AgentRegistration) (bindings : List (String × Json)) :
    Json → List (String × Json)
  | .obj node =>
    let primary := (missingAgent agents (membersOf (Members.lookup "config" node))).bind fun agent =>
      agent.primaryCapabilityId.filter (· ≠ "")
    let nodeId := idText (Members.lookup "id" node)
    match primary, textOf (Members.lookup nodeId bindings) with
    | some capabilityId, none => Members.set nodeId (.str capabilityId) bindings
    | _, _ => bindings
  | _ => bindings

/-- Two values of one document are identical: containers at different places never are. -/
def identical : Json → Json → Bool
  | .arr _, _ | .obj _, _ => false
  | a, b => a == b

/-- `materializeAgentContracts`: the package and the nodes with agents and skills that were missing. -/
def materializeAgentContracts (agents : List AgentRegistration) (skills : List SkillRegistration)
    (pkg : List (String × Json)) (nodes : List Json) :
    Except String (List (String × Json) × List Json) := do
  let packageAgents ← upsertById (itemsOf (Members.lookup "agents" pkg))
    (agents.map fun agent => (agent.id, compiledAgent agent))
  let packageSkills ← upsertById (itemsOf (Members.lookup "skills" pkg))
    (skills.map fun skill => (skill.id, compiledSkill skill))
  let modelProfiles := (itemsOf (Members.lookup "modelProfiles" pkg) ++
    agents.map fun agent => Json.str agent.modelProfileId).eraseDupsBy identical
  let bindings := nodes.foldl (bindNode agents) (membersOf (Members.lookup "bindings" pkg))
  let pkg := Members.set "skills" (.arr packageSkills) (Members.set "agents" (.arr packageAgents) pkg)
  let pkg := Members.set "bindings" (.obj bindings) (Members.set "modelProfiles" (.arr modelProfiles) pkg)
  return (pkg, nodes.map (fillNode agents))

/-- The package and the nodes with agents and skills that were missing, if any were. -/
def embedContracts (agents : List AgentRegistration) (skills : List SkillRegistration)
    (pkg : List (String × Json)) (nodes : List Json) :
    Except String (List (String × Json) × List Json) :=
  if agents.isEmpty && skills.isEmpty then .ok (pkg, nodes)
  else materializeAgentContracts agents skills pkg nodes

/-- The capabilities that are bound, as strings. -/
def boundIds (pkg : List (String × Json)) : List String :=
  (membersOf (Members.lookup "bindings" pkg)).filterMap fun member => textOf (some member.2)

/-- The registered capabilities that are bound and that the package does not have. -/
def missingCapabilities (registries : Registries) (pkg : List (String × Json)) :
    Except String (List CapabilityRegistration) := do
  let embeddedCapabilityIds ← embeddedIds (itemsOf (Members.lookup "capabilities" pkg))
  return missing (·.id) registries.capabilities embeddedCapabilityIds (boundIds pkg)

/-- The package with capabilities that were missing. -/
def embedCapabilities (capabilities : List CapabilityRegistration) (pkg : List (String × Json)) :
    Except String (List (String × Json)) := do
  if capabilities.isEmpty then return pkg
  else
    let packageCapabilities ← upsertById (itemsOf (Members.lookup "capabilities" pkg))
      (capabilities.map fun capability => (capability.id, compiledCapability capability))
    return Members.set "capabilities" (.arr packageCapabilities) pkg

/-- The members of `workflow.spec` with other nodes. Nodes that are no array are not in the workflow. -/
def storeNodes (nodes : List Json) (spec : List (String × Json)) : List (String × Json) :=
  match Members.lookup "nodes" spec with
  | some (.arr _) => Members.set "nodes" (.arr nodes) spec
  | _ => spec

/-- The members of the package and of `workflow.spec` with the contracts that were missing, or `none` if none
were. -/
def materializeDocuments (registries : Registries) (pkg spec : List (String × Json)) :
    Except String (Option (List (String × Json) × List (String × Json))) := do
  let nodes := itemsOf (Members.lookup "nodes" spec)
  let (agents, skills) ← collectReferences registries pkg nodes
  let (pkg, nodes) ← embedContracts agents skills pkg nodes
  let capabilities ← missingCapabilities registries pkg
  let pkg ← embedCapabilities capabilities pkg
  return if agents.isEmpty && skills.isEmpty && capabilities.isEmpty then none
    else some (pkg, storeNodes nodes spec)

/-- `materializeRegisteredContracts`: the sources, and whether they are new. -/
def materializeRegisteredContracts (yaml : Yaml) (sources : AuthoringSources) (registries : Registries) :
    Except String (AuthoringSources × Bool) := do
  let pkg ← yaml.parse sources.packageSource
  let workflow ← yaml.parse sources.workflowSource
  let pkg ← orThrow "authoring.agent_source_invalid" (object? pkg)
  let workflow ← orThrow "authoring.agent_source_invalid" (object? workflow)
  let spec ← orThrow "authoring.agent_source_invalid" ((Members.lookup "spec" workflow).bind object?)
  let documents ← materializeDocuments registries pkg spec
  return match documents with
    | none => (sources, false)
    | some (pkg, spec) => (⟨yaml.stringify (.obj pkg),
        yaml.stringify (.obj (Members.set "spec" (.obj spec) workflow))⟩, true)

/-! ## A library that writes some documents in block style -/

/-- JSON texts do not start with a character. -/
def StartsNoJson (c : Char) : Prop :=
  JsonText.kindOfChar c = .num ∧ (∀ d, JsonNumber.digitChar d ≠ c) ∧ c ≠ '-'

instance : DecidablePred StartsNoJson := fun _ => inferInstanceAs (Decidable (_ ∧ _ ∧ _))

theorem stringify_ne {c : Char} (hc : StartsNoJson c) (cs : List Char) (document : Json) :
    document.stringify ≠ c :: cs := by
  intro h
  obtain ⟨d, ds, hds, hkind⟩ := JsonText.exists_toChars (Json.spelled_toText document)
  rw [Json.stringify_eq, hds] at h
  obtain ⟨rfl, -⟩ := List.cons.inj h
  rw [hc.1] at hkind
  match document with
  | .num n =>
    obtain ⟨e, es, hes, he⟩ := n.exists_toChars
    rw [Json.toText, JsonText.toChars, hes] at hds
    obtain ⟨rfl, -⟩ := List.cons.inj hds
    exact he.elim (fun ⟨digit, hdigit⟩ => hc.2.1 digit hdigit) hc.2.2
  | .null | .bool true | .bool false | .str _ | .arr _ | .obj _ => simp [Json.toText, JsonText.kind] at hkind

/-- Documents, with the first character and the rest of what is written of them. -/
abbrev TextTable : Type := List (Json × Char × String)

/-- The text of a document: as a table says, and JSON otherwise. -/
def tableText (table : TextTable) (document : Json) : String :=
  match table.lookup document with
  | some text => String.ofList (text.1 :: text.2.toList)
  | none => String.ofList document.stringify

/-- The texts of a table are no JSON, and start differently. -/
structure BlockTexts (table : TextTable) : Prop where
  block : ∀ entry ∈ table, StartsNoJson entry.2.1
  distinct : (table.map (·.2.1)).Nodup

theorem tableText_injective {table : TextTable} (h : BlockTexts table) :
    Function.Injective (tableText table) := by
  have hentry : ∀ {document text}, table.lookup document = some text → (document, text) ∈ table := by
    intro document text hlookup
    clear h
    induction table with
    | nil => cases hlookup
    | cons entry table ih =>
      rw [List.lookup_cons] at hlookup
      split at hlookup
      · next heq =>
        obtain rfl := Option.some_inj.mp hlookup
        exact (beq_iff_eq.mp heq) ▸ List.mem_cons_self
      · exact List.mem_cons_of_mem _ (ih hlookup)
  intro a b hab
  rw [tableText, tableText] at hab
  cases ha : table.lookup a with
  | some text =>
    cases hb : table.lookup b with
    | some other =>
      simp only [ha, hb] at hab
      have hstart := (List.cons.inj (String.ofList_injective hab)).1
      exact congrArg Prod.fst (List.inj_on_of_nodup_map h.distinct (hentry ha) (hentry hb) hstart)
    | none =>
      simp only [ha, hb] at hab
      exact absurd (String.ofList_injective hab).symm (stringify_ne (h.block _ (hentry ha)) _ b)
  | none =>
    cases hb : table.lookup b with
    | some other =>
      simp only [ha, hb] at hab
      exact absurd (String.ofList_injective hab) (stringify_ne (h.block _ (hentry hb)) _ a)
    | none =>
      simp only [ha, hb] at hab
      exact Json.stringify_injective (String.ofList_injective hab)

open Classical in
/-- A library that writes the documents of a table in block style, and other documents as JSON. -/
noncomputable def Yaml.ofTable (table : TextTable) (h : BlockTexts table) : Yaml where
  parse text := if hdocument : ∃ document, tableText table document = text then .ok hdocument.choose
    else .error "YAMLParseError"
  stringify := tableText table
  parse_stringify document := by
    have hdocument : ∃ other, tableText table other = tableText table document := ⟨document, rfl⟩
    rw [dif_pos hdocument]
    exact congrArg Except.ok (tableText_injective h hdocument.choose_spec)

namespace Sample

/-- An agent without skills. -/
def reviewer : AgentRegistration where
  id := "reviewer"
  name := "Reviewer"
  description := "Reviews risk"
  role := "Analyst"
  prompt := "Review risk."
  modelProfileId := "model.standard.v1"
  runtimeTarget := "local_http"
  skillIds := []
  caseWrites := []
  primaryCapabilityId := none
  inputSchema := [("type", .str "object")]
  outputSchema := [("type", .str "object")]
  version := "0.1.0"
  id_ne := by decide

/-- The agent is inserted behind a node. -/
def behind (nodeId newNodeId : String) : AgentAttachment where
  agent := reviewer
  skills := []
  nodeId := nodeId
  mode := .insertAfter
  newNodeId := some newNodeId

/-- A package without agents. -/
def pkg : List (String × Json) := [("kind", .str "DomainPackage")]

/-- The package with the agent. -/
def pkgWithAgent : List (String × Json) :=
  [("kind", .str "DomainPackage"), ("modelProfiles", texts ["model.standard.v1"]), ("skills", .arr []),
    ("agents", .arr [compiledAgent reviewer])]

def node (id kind : String) : Json := .obj [("id", .str id), ("kind", .str kind)]

def edge (id source target : String) : Json :=
  .obj [("id", .str id), ("from", .str source), ("to", .str target), ("kind", .str "data")]

/-- A workflow with a specification. -/
def workflow (spec : List (String × Json)) : List (String × Json) := [("spec", .obj spec)]

/-- How the package with the agent is written, after its first character. -/
def pkgText : String :=
  "ind: DomainPackage\nmodelProfiles:\n  - model.standard.v1\nskills: []\nagents:\n" ++
  "  - id: reviewer\n    name: Reviewer\n    description: Reviews risk\n    role: Analyst\n" ++
  "    prompt: Review risk.\n    modelProfileId: model.standard.v1\n    runtimeTarget: local_http\n" ++
  "    skillIds: []\n    caseWrites: []\n    inputSchema:\n      type: object\n" ++
  "    outputSchema:\n      type: object\n    version: 0.1.0\n"

/-- How a node is written in the specification. -/
def nodeText (id kind : String) : String := "    - id: " ++ id ++ "\n      kind: " ++ kind ++ "\n"

/-- How an edge is written in the specification. -/
def edgeText (id source target : String) : String :=
  "    - id: " ++ id ++ "\n      from: " ++ source ++ "\n      to: " ++ target ++ "\n      kind: data\n"

/-- How the node of the agent is written. -/
def agentText (id : String) : String :=
  "    - id: " ++ id ++ "\n      kind: evaluate\n      name: Reviewer\n      summary: Reviews risk\n" ++
  "      role: Analyst\n      prompt: Review risk.\n      inputSchema:\n        type: object\n" ++
  "      outputSchema:\n        type: object\n      config:\n        caseWrites: []\n" ++
  "        agentRef: reviewer\n        agentVersion: 0.1.0\n        skillRefs: []\n" ++
  "        modelProfileId: model.standard.v1\n        runtimeTarget: local_http\n"

/-- The library, writing the package with the agent and a workflow in block style. -/
noncomputable def yaml (spec : List (String × Json)) (nodesText : String) : Yaml := .ofTable
  [(.obj pkgWithAgent, 'k', pkgText), (.obj (workflow spec), 's', "pec:\n  nodes:\n" ++ nodesText)]
  ⟨List.forall_mem_cons.mpr ⟨show StartsNoJson 'k' by decide,
    List.forall_mem_cons.mpr ⟨show StartsNoJson 's' by decide, nofun⟩⟩, show ['k', 's'].Nodup by decide⟩

/-- What a library writes of a package and a workflow. -/
def sources (yaml : Yaml) (pkg spec : List (String × Json)) : AuthoringSources :=
  ⟨yaml.stringify (.obj pkg), yaml.stringify (.obj (workflow spec))⟩

theorem parse_sources (yaml : Yaml) (pkg spec : List (String × Json)) :
    yaml.parse (sources yaml pkg spec).workflowSource = .ok (.obj (workflow spec)) := yaml.parse_stringify _

theorem attachContracts_pkg (nodeId newNodeId attachedNodeId : String) :
    attachContracts (behind nodeId newNodeId) attachedNodeId pkg = .ok pkgWithAgent := by rfl

end Sample

end ControlApi

end HarnessFramework
