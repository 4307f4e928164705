import HarnessFramework.ControlApi.Attachment

/-!
# Materializing registered contracts

`materializeRegisteredContracts` embeds in a package what its workflow and its bindings refer to and the
registries have. One pass is enough: what it adds refers to nothing that it does not add as well. It keeps
what was embedded and bound, and what was authored with the type of its field.

## Main definitions

* `Complete` — everything that is referred to and registered is embedded
* `KeepsContracts`, `KeepsNode`, `KeepsWorkflow` — what is unchanged

## Main results

* `Extends.complete` — what was missing completes a package
* `materializeDocuments_of_settled` — nothing is missing in a complete package
* `materialize_closure` — materializing is idempotent, conservative and complete
-/

namespace HarnessFramework

namespace ControlApi

open Checks

/-! ## What documents embed and refer to -/

/-- The items of a package under a key. -/
def itemsAt (key : String) (pkg : Json) : List Json := itemsOf (memberAt key pkg)

/-- The bindings of a package. -/
def bindingsOf (pkg : Json) : List (String × Json) := membersOf (memberAt "bindings" pkg)

/-- The configuration of a node. -/
def configOf (node : Json) : List (String × Json) := membersOf (memberAt "config" node)

/-- An item with an id is embedded. -/
def Embedded (items : List Json) (id : String) : Prop := ∃ item ∈ items, memberAt "id" item = some (.str id)

/-- A registry resolves an id. -/
def Resolves {α : Type} (idOf : α → String) (entries : List α) (id : String) : Prop :=
  ∃ entry, registered idOf entries id = some entry

/-- **Everything that is referred to and registered is embedded.** -/
structure Complete (registries : Registries) (pkg : Json) (nodes : List Json) : Prop where
  agents : ∀ node ∈ nodes, ∀ agentRef,
    Members.lookup "agentRef" (configOf node) = some (.str agentRef) →
    Resolves (·.id) registries.agents agentRef → Embedded (itemsAt "agents" pkg) agentRef
  skills : ∀ node ∈ nodes, ∀ skillId,
    .str skillId ∈ itemsOf (Members.lookup "skillRefs" (configOf node)) →
    Resolves (·.id) registries.skills skillId → Embedded (itemsAt "skills" pkg) skillId
  capabilities : ∀ nodeId capabilityId, (nodeId, .str capabilityId) ∈ bindingsOf pkg →
    Resolves (·.id) registries.capabilities capabilityId →
    Embedded (itemsAt "capabilities" pkg) capabilityId

/-! ## What is unchanged -/

/-- What is authored in a field. -/
inductive FieldType
  | object
  | text
  | items

/-- A value has the type of a field. -/
def FieldType.admits : FieldType → Json → Bool
  | .object, .obj _ => true
  | .text, .str _ => true
  | .items, .arr _ => true
  | _, _ => false

/-- The fields of a node that an agent fills. -/
def filledFields : List (String × FieldType) :=
  [("inputSchema", .object), ("outputSchema", .object), ("role", .text), ("prompt", .text)]

/-- The fields of a node's configuration that an agent fills. -/
def filledConfig : List (String × FieldType) :=
  [("caseWrites", .items), ("skillRefs", .items), ("modelProfileId", .text), ("runtimeTarget", .text)]

/-- **Contracts and bindings that were there are unchanged**, and so is the rest of the package. -/
structure KeepsContracts (pkg pkg' : Json) : Prop where
  embedded : ∀ key ∈ ["agents", "skills", "capabilities"], itemsAt key pkg <+: itemsAt key pkg'
  bindings : ∀ nodeId capabilityId, Members.lookup nodeId (bindingsOf pkg) = some (.str capabilityId) →
    Members.lookup nodeId (bindingsOf pkg') = some (.str capabilityId)
  others : ∀ key, key ∉ ["agents", "skills", "capabilities", "modelProfiles", "bindings"] →
    memberAt key pkg' = memberAt key pkg

/-- **Fields of a node that were authored with their type are unchanged**, and so is the rest of it. -/
structure KeepsNode (node node' : Json) : Prop where
  fields : ∀ field ∈ filledFields, ∀ value, field.2.admits value = true →
    memberAt field.1 node = some value → memberAt field.1 node' = some value
  config : ∀ field ∈ filledConfig, ∀ value, field.2.admits value = true →
    Members.lookup field.1 (configOf node) = some value →
    Members.lookup field.1 (configOf node') = some value
  others : ∀ key, key ∉ filledFields.map Prod.fst → key ≠ "config" → memberAt key node' = memberAt key node
  configOthers : ∀ key, key ∉ filledConfig.map Prod.fst →
    Members.lookup key (configOf node') = Members.lookup key (configOf node)

/-- **A workflow is unchanged but for its nodes**, which keep what was authored. -/
structure KeepsWorkflow (workflow workflow' : Json) : Prop where
  nodes : List.Forall₂ KeepsNode (nodesOf workflow) (nodesOf workflow')
  spec : ∀ key, key ≠ "nodes" → Members.lookup key (specOf workflow') = Members.lookup key (specOf workflow)
  others : ∀ key, key ≠ "spec" → memberAt key workflow' = memberAt key workflow

/-! ## Reading ids -/

/-- No property of `null` is read. -/
def Readable (items : List Json) : Prop := ∀ item ∈ items, item ≠ .null

theorem property_of_ne_null {value : Json} (h : value ≠ .null) (key : String) :
    property key value = .ok (memberAt key value) := by
  match value with
  | .null => exact absurd rfl h
  | .obj _ | .bool _ | .num _ | .str _ | .arr _ => rfl

theorem mapM_property_iff {key : String} {items : List Json} {values : List (Option Json)} :
    items.mapM (property key) = .ok values ↔ Readable items ∧ values = items.map (memberAt key) := by
  constructor
  · intro h
    refine ⟨?_, map_of_mapM property_ok h⟩
    rintro item hitem rfl
    obtain ⟨value, hvalue⟩ := exists_of_mapM h hitem
    cases hvalue
  · rintro ⟨hreadable, rfl⟩
    refine mapM_eq_ok.mpr ?_
    rw [List.forall₂_map_right_iff]
    exact List.forall₂_same.mpr fun item hitem => property_of_ne_null (hreadable item hitem) key

/-- The ids of items, as far as they are strings. -/
def idsIn (items : List Json) : List String := items.filterMap fun item => textOf (memberAt "id" item)

theorem textOf_eq_some {value : Option Json} {text : String} : textOf value = some text ↔ value = some (.str text) := by
  match value with
  | some (.str other) => simp [textOf]
  | none | some .null | some (.bool _) | some (.num _) | some (.arr _) | some (.obj _) => simp [textOf]

theorem mem_idsIn {items : List Json} {id : String} : id ∈ idsIn items ↔ Embedded items id := by
  rw [idsIn, List.mem_filterMap]
  exact exists_congr fun item => and_congr_right fun _ => textOf_eq_some

theorem embeddedIds_iff {items : List Json} {ids : List String} :
    embeddedIds items = .ok ids ↔ Readable items ∧ ids = idsIn items := by
  rw [embeddedIds, bind_eq_ok]
  constructor
  · rintro ⟨values, hvalues, h⟩
    obtain ⟨hreadable, rfl⟩ := mapM_property_iff.mp hvalues
    rw [pure_eq_ok, List.filterMap_map] at h
    exact ⟨hreadable, h.symm⟩
  · rintro ⟨hreadable, rfl⟩
    refine ⟨_, mapM_property_iff.mpr ⟨hreadable, rfl⟩, ?_⟩
    rw [pure_eq_ok, List.filterMap_map]
    rfl

/-- Additions that are new are put behind the items. -/
theorem upsertById_ok {items result : List Json} {additions : List (String × Json)}
    (hnew : ∀ addition ∈ additions, ¬Embedded items addition.1) (h : upsertById items additions = .ok result) :
    result = items ++ additions.map Prod.snd := by
  have hkept : ∀ {items kept : List Json}, (∀ addition ∈ additions, ¬Embedded items addition.1) →
      withoutIds (additions.map Prod.fst) items = .ok kept → kept = items := by
    intro items
    induction items with
    | nil => exact fun _ hkept => (Except.ok.inj hkept).symm
    | cons item items ih =>
      intro kept hnew hkept
      rw [withoutIds, bind_eq_ok] at hkept
      obtain ⟨id, hid, hkept⟩ := hkept
      obtain ⟨rest, hrest, hkept⟩ := bind_eq_ok.mp hkept
      have htail : ∀ addition ∈ additions, ¬Embedded items addition.1 := by
        rintro addition haddition ⟨other, hother, hsame⟩
        exact hnew addition haddition ⟨other, List.mem_cons_of_mem _ hother, hsame⟩
      rw [pure_eq_ok, property_ok hid, ih htail hrest, if_neg] at hkept
      · exact hkept.symm
      · rw [Option.any_eq_true]
        rintro ⟨text, htext, hmem⟩
        obtain ⟨addition, haddition, rfl⟩ := List.mem_map.mp (of_decide_eq_true hmem)
        exact hnew addition haddition ⟨item, List.mem_cons_self, textOf_eq_some.mp htext⟩
  rw [upsertById, bind_eq_ok] at h
  obtain ⟨kept, h', h⟩ := h
  rw [pure_eq_ok, hkept hnew h'] at h
  exact h.symm

/-! ## What is missing -/

section

variable {α : Type} {idOf : α → String} {entries : List α}

theorem registered_id {id : String} {entry : α} (h : registered idOf entries id = some entry) : idOf entry = id :=
  of_decide_eq_true (List.find?_some h :)

theorem mem_missing {items : List Json} {ids : List String} {entry : α} :
    entry ∈ missing idOf entries (idsIn items) ids
      ↔ ∃ id ∈ ids, ¬Embedded items id ∧ registered idOf entries id = some entry := by
  rw [missing, List.mem_filterMap]
  refine exists_congr fun id => ?_
  rw [List.mem_filter, List.mem_eraseDups, decide_eq_true_eq, mem_idsIn, and_assoc]

/-- What was missing is new. -/
theorem not_embedded_of_missing {items : List Json} {ids : List String} {entry : α}
    (h : entry ∈ missing idOf entries (idsIn items) ids) : ¬Embedded items (idOf entry) := by
  obtain ⟨id, -, hnot, hregistered⟩ := mem_missing.mp h
  rwa [registered_id hregistered]

/-- **With what was missing, every id that the registry resolves is embedded.** -/
theorem embedded_of_resolves {compiled : α → Json}
    (hcompiled : ∀ entry, memberAt "id" (compiled entry) = some (.str (idOf entry))) {items : List Json}
    {ids : List String} {id : String} (hid : id ∈ ids) (h : Resolves idOf entries id) :
    Embedded (items ++ (missing idOf entries (idsIn items) ids).map compiled) id := by
  obtain ⟨entry, hentry⟩ := h
  by_cases hembedded : Embedded items id
  · obtain ⟨item, hitem, hsame⟩ := hembedded
    exact ⟨item, List.mem_append_left _ hitem, hsame⟩
  · refine ⟨compiled entry, List.mem_append_right _ (List.mem_map_of_mem ?_), ?_⟩
    · exact mem_missing.mpr ⟨id, hid, hembedded, hentry⟩
    · rw [hcompiled, registered_id hentry]

/-- Nothing is missing if every id that the registry resolves is embedded. -/
theorem missing_eq_nil {items : List Json} {ids : List String}
    (h : ∀ id ∈ ids, Resolves idOf entries id → Embedded items id) :
    missing idOf entries (idsIn items) ids = [] := by
  refine List.eq_nil_iff_forall_not_mem.mpr fun entry hentry => ?_
  obtain ⟨id, hid, hnot, hregistered⟩ := mem_missing.mp hentry
  exact hnot (h id hid ⟨entry, hregistered⟩)

end

/-! ## Nodes that are filled -/

theorem missingAgent_eq_some {agents : List AgentRegistration} {config : List (String × Json)}
    {agent : AgentRegistration} (h : missingAgent agents config = some agent) : agent ∈ agents := by
  obtain ⟨agentRef, -, hfind⟩ := Option.bind_eq_some_iff.mp h
  exact List.mem_of_find?_eq_some hfind

theorem missingAgent_nil (config : List (String × Json)) : missingAgent [] config = none := by
  rw [missingAgent, Option.bind_eq_none_iff]
  exact fun _ _ => rfl

/-- A node after it was filled. -/
theorem fillNode_eq (agents : List AgentRegistration) (node : Json) :
    fillNode agents node = match missingAgent agents (configOf node) with
      | some agent => .obj (fillMembers agent (membersOf (some node)))
      | none => node := by
  match node with
  | .obj members => rfl
  | .null | .bool _ | .num _ | .str _ | .arr _ => rfl

theorem map_fillNode_nil (nodes : List Json) : nodes.map (fillNode []) = nodes := by
  refine (List.map_congr_left fun node _ => ?_).trans (List.map_id nodes)
  rw [fillNode_eq, missingAgent_nil, id_eq]

theorem memberAt_fillMembers (agent : AgentRegistration) (node : Json) (key : String) (hkey : key ≠ "config") :
    memberAt key (.obj (fillMembers agent (membersOf (some node)))) =
      if "prompt" = key then some (orText agent.prompt (memberAt "prompt" node))
      else if "role" = key then some (orText agent.role (memberAt "role" node))
      else if "outputSchema" = key then some (orObject agent.outputSchema (memberAt "outputSchema" node))
      else if "inputSchema" = key then some (orObject agent.inputSchema (memberAt "inputSchema" node))
      else memberAt key node := by
  simp [memberAt, membersOf, fillMembers, Members.lookup_set, Ne.symm hkey]

theorem lookup_configOf_fillMembers (agent : AgentRegistration) (node : Json) (key : String) :
    Members.lookup key (configOf (.obj (fillMembers agent (membersOf (some node))))) =
      if "runtimeTarget" = key then
        some (orText agent.runtimeTarget (Members.lookup "runtimeTarget" (configOf node)))
      else if "modelProfileId" = key then
        some (orText agent.modelProfileId (Members.lookup "modelProfileId" (configOf node)))
      else if "skillRefs" = key then
        some (orItems (agent.skillIds.map .str) (Members.lookup "skillRefs" (configOf node)))
      else if "caseWrites" = key then
        some (orItems agent.caseWrites (Members.lookup "caseWrites" (configOf node)))
      else Members.lookup key (configOf node) := by
  have hconfig : configOf (.obj (fillMembers agent (membersOf (some node)))) = Members.spread (configOf node)
      [("caseWrites", orItems agent.caseWrites (Members.lookup "caseWrites" (configOf node))),
        ("skillRefs", orItems (agent.skillIds.map .str) (Members.lookup "skillRefs" (configOf node))),
        ("modelProfileId", orText agent.modelProfileId (Members.lookup "modelProfileId" (configOf node))),
        ("runtimeTarget", orText agent.runtimeTarget (Members.lookup "runtimeTarget" (configOf node)))] := by
    rw [configOf, memberAt, membersOf, fillMembers, Members.lookup_set, if_pos rfl]
    rfl
  rw [hconfig, Members.lookup_spread]
  simp only [List.reverse_cons, List.reverse_nil, List.nil_append, List.cons_append, Members.lookup_cons,
    Members.lookup_nil]
  split_ifs <;> rfl

theorem orObject_of_admits {value : Json} (h : FieldType.object.admits value = true)
    (members : List (String × Json)) : orObject members (some value) = value := by
  match value with
  | .obj _ => rfl

theorem orText_of_admits {value : Json} (h : FieldType.text.admits value = true) (text : String) :
    orText text (some value) = value := by
  match value with
  | .str _ => rfl

theorem orItems_of_admits {value : Json} (h : FieldType.items.admits value = true) (items : List Json) :
    orItems items (some value) = value := by
  match value with
  | .arr _ => rfl

/-- **What an agent fills was not authored.** -/
theorem keepsNode_fillMembers (agent : AgentRegistration) (node : Json) :
    KeepsNode node (.obj (fillMembers agent (membersOf (some node)))) where
  fields := by
    intro field hfield value hadmits hvalue
    simp only [filledFields, List.mem_cons, List.not_mem_nil, or_false] at hfield
    rcases hfield with rfl | rfl | rfl | rfl <;> rw [memberAt_fillMembers _ _ _ (by decide), hvalue]
    · exact congrArg some (orObject_of_admits hadmits _)
    · exact congrArg some (orObject_of_admits hadmits _)
    · exact congrArg some (orText_of_admits hadmits _)
    · exact congrArg some (orText_of_admits hadmits _)
  config := by
    intro field hfield value hadmits hvalue
    simp only [filledConfig, List.mem_cons, List.not_mem_nil, or_false] at hfield
    rcases hfield with rfl | rfl | rfl | rfl <;> rw [lookup_configOf_fillMembers, hvalue]
    · exact congrArg some (orItems_of_admits hadmits _)
    · exact congrArg some (orItems_of_admits hadmits _)
    · exact congrArg some (orText_of_admits hadmits _)
    · exact congrArg some (orText_of_admits hadmits _)
  others := by
    intro key hkey hconfig
    simp only [filledFields, List.map_cons, List.map_nil, List.mem_cons, List.not_mem_nil, or_false,
      not_or] at hkey
    obtain ⟨hinput, houtput, hrole, hprompt⟩ := hkey
    rw [memberAt_fillMembers _ _ _ hconfig, if_neg (Ne.symm hprompt), if_neg (Ne.symm hrole),
      if_neg (Ne.symm houtput), if_neg (Ne.symm hinput)]
  configOthers := by
    intro key hkey
    simp only [filledConfig, List.map_cons, List.map_nil, List.mem_cons, List.not_mem_nil, or_false,
      not_or] at hkey
    obtain ⟨hwrites, hskills, hprofile, htarget⟩ := hkey
    rw [lookup_configOf_fillMembers, if_neg (Ne.symm htarget), if_neg (Ne.symm hprofile),
      if_neg (Ne.symm hskills), if_neg (Ne.symm hwrites)]

theorem keepsNode_refl (node : Json) : KeepsNode node node where
  fields _ _ _ _ h := h
  config _ _ _ _ h := h
  others _ _ _ := rfl
  configOthers _ _ := rfl

theorem keepsNode_fillNode (agents : List AgentRegistration) (node : Json) :
    KeepsNode node (fillNode agents node) := by
  rw [fillNode_eq]
  split
  · exact keepsNode_fillMembers _ node
  · exact keepsNode_refl node

/-- A node refers to the agent that it referred to. -/
theorem agentRef_fillNode (agents : List AgentRegistration) (node : Json) :
    Members.lookup "agentRef" (configOf (fillNode agents node))
      = Members.lookup "agentRef" (configOf node) :=
  (keepsNode_fillNode agents node).configOthers _ (by decide)

/-- **A node that is filled refers to the skills of its agent**, or to those that were authored. -/
theorem skillRefs_fillNode {agents : List AgentRegistration} {node : Json} {skillId : String}
    (h : .str skillId ∈ itemsOf (Members.lookup "skillRefs" (configOf (fillNode agents node)))) :
    .str skillId ∈ itemsOf (Members.lookup "skillRefs" (configOf node)) ∨
      ∃ agent ∈ agents, skillId ∈ agent.skillIds := by
  rw [fillNode_eq] at h
  split at h
  · next agent hagent =>
    rw [lookup_configOf_fillMembers] at h
    match hauthored : Members.lookup "skillRefs" (configOf node) with
    | some (.arr items) => exact .inl (by rwa [hauthored] at h)
    | none | some .null | some (.bool _) | some (.num _) | some (.str _) | some (.obj _) =>
      rw [hauthored] at h
      obtain ⟨other, hother, heq⟩ := List.mem_map.mp h
      exact .inr ⟨agent, missingAgent_eq_some hagent, Json.str.inj heq ▸ hother⟩
  · exact .inl h

theorem readable_map_fillNode {agents : List AgentRegistration} {nodes : List Json} (h : Readable nodes) :
    Readable (nodes.map (fillNode agents)) := by
  intro node' hnode'
  obtain ⟨node, hnode, rfl⟩ := List.mem_map.mp hnode'
  rw [fillNode_eq]
  split
  · exact nofun
  · exact h node hnode

/-! ## Packages that are extended -/

/-- A string that is bound stays bound. -/
theorem lookup_bindNode {agents : List AgentRegistration} {bindings : List (String × Json)} {nodeId capabilityId : String}
    (h : Members.lookup nodeId bindings = some (.str capabilityId)) (node : Json) :
    Members.lookup nodeId (bindNode agents bindings node) = some (.str capabilityId) := by
  cases node with
  | null | bool _ | num _ | str _ | arr _ => exact h
  | obj members =>
    rw [bindNode]
    split
    · next hfree =>
      rw [Members.lookup_set, if_neg, h]
      intro heq
      rw [heq, h] at hfree
      cases hfree
    · exact h

theorem lookup_foldl_bindNode {agents : List AgentRegistration} {nodes : List Json}
    {bindings : List (String × Json)} {nodeId capabilityId : String}
    (h : Members.lookup nodeId bindings = some (.str capabilityId)) :
    Members.lookup nodeId (nodes.foldl (bindNode agents) bindings) = some (.str capabilityId) := by
  induction nodes generalizing bindings with
  | nil => exact h
  | cons node nodes ih => exact ih (lookup_bindNode h node)

/-- **A package with more contracts**, and more bindings. -/
structure Extends (agents : List AgentRegistration) (skills : List SkillRegistration)
    (capabilities : List CapabilityRegistration) (pkg pkg' : Json) : Prop where
  agents : itemsAt "agents" pkg' = itemsAt "agents" pkg ++ agents.map compiledAgent
  skills : itemsAt "skills" pkg' = itemsAt "skills" pkg ++ skills.map compiledSkill
  capabilities : itemsAt "capabilities" pkg' = itemsAt "capabilities" pkg ++ capabilities.map compiledCapability
  bindings : ∀ nodeId capabilityId, Members.lookup nodeId (bindingsOf pkg) = some (.str capabilityId) →
    Members.lookup nodeId (bindingsOf pkg') = some (.str capabilityId)
  others : ∀ key, key ∉ ["agents", "skills", "capabilities", "modelProfiles", "bindings"] →
    memberAt key pkg' = memberAt key pkg

theorem Extends.refl (pkg : Json) : Extends [] [] [] pkg pkg where
  agents := (List.append_nil _).symm
  skills := (List.append_nil _).symm
  capabilities := (List.append_nil _).symm
  bindings _ _ h := h
  others _ _ := rfl

theorem Extends.keepsContracts {agents : List AgentRegistration} {skills : List SkillRegistration}
    {capabilities : List CapabilityRegistration} {pkg pkg' : Json}
    (h : Extends agents skills capabilities pkg pkg') : KeepsContracts pkg pkg' where
  embedded := by
    intro key hkey
    simp only [List.mem_cons, List.not_mem_nil, or_false] at hkey
    rcases hkey with rfl | rfl | rfl
    · exact ⟨_, h.agents.symm⟩
    · exact ⟨_, h.skills.symm⟩
    · exact ⟨_, h.capabilities.symm⟩
  bindings := h.bindings
  others := h.others

theorem materializeAgentContracts_ok {agents : List AgentRegistration} {skills : List SkillRegistration}
    {pkg pkg' : List (String × Json)} {nodes nodes' : List Json}
    (hagents : ∀ agent ∈ agents, ¬Embedded (itemsAt "agents" (.obj pkg)) agent.id)
    (hskills : ∀ skill ∈ skills, ¬Embedded (itemsAt "skills" (.obj pkg)) skill.id)
    (h : materializeAgentContracts agents skills pkg nodes = .ok (pkg', nodes')) :
    Extends agents skills [] (.obj pkg) (.obj pkg') ∧ nodes' = nodes.map (fillNode agents) := by
  rw [materializeAgentContracts, bind_eq_ok] at h
  obtain ⟨packageAgents, hpackageAgents, h⟩ := h
  obtain ⟨packageSkills, hpackageSkills, h⟩ := bind_eq_ok.mp h
  rw [pure_eq_ok, Prod.mk.injEq] at h
  obtain ⟨hpkg, rfl⟩ := h
  have hpackageAgents := upsertById_ok (List.forall_mem_map.mpr hagents) hpackageAgents
  have hpackageSkills := upsertById_ok (List.forall_mem_map.mpr hskills) hpackageSkills
  rw [List.map_map] at hpackageAgents hpackageSkills
  subst hpkg hpackageAgents hpackageSkills
  refine ⟨⟨?_, ?_, ?_, ?_, ?_⟩, rfl⟩
  · simp [itemsAt, memberAt, membersOf, Members.lookup_set, itemsOf, Function.comp_def]
  · simp [itemsAt, memberAt, membersOf, Members.lookup_set, itemsOf, Function.comp_def]
  · simp [itemsAt, memberAt, membersOf, Members.lookup_set]
  · intro nodeId capabilityId hbound
    rw [bindingsOf, memberAt, membersOf, Members.lookup_set, if_pos rfl, membersOf]
    exact lookup_foldl_bindNode hbound
  · intro key hkey
    simp only [List.mem_cons, List.not_mem_nil, or_false, not_or] at hkey
    obtain ⟨hagents, hskills, -, hprofiles, hbindings⟩ := hkey
    rw [memberAt, memberAt, membersOf, membersOf, Members.lookup_set, if_neg (Ne.symm hbindings),
      Members.lookup_set, if_neg (Ne.symm hprofiles), Members.lookup_set, if_neg (Ne.symm hskills),
      Members.lookup_set, if_neg (Ne.symm hagents)]

theorem embedCapabilities_ok {agents : List AgentRegistration} {skills : List SkillRegistration}
    {capabilities : List CapabilityRegistration} {pkg pkg' pkg'' : List (String × Json)}
    (hbefore : Extends agents skills [] (.obj pkg) (.obj pkg'))
    (hnew : ∀ capability ∈ capabilities, ¬Embedded (itemsAt "capabilities" (.obj pkg')) capability.id)
    (h : embedCapabilities capabilities pkg' = .ok pkg'') :
    Extends agents skills capabilities (.obj pkg) (.obj pkg'') ∧ bindingsOf (.obj pkg'') = bindingsOf (.obj pkg') := by
  rw [embedCapabilities] at h
  split at h
  · next hempty =>
    obtain rfl := List.isEmpty_iff.mp hempty
    obtain rfl := Except.ok.inj h
    exact ⟨hbefore, rfl⟩
  obtain ⟨packageCapabilities, hpackage, h⟩ := bind_eq_ok.mp h
  rw [pure_eq_ok] at h
  have hpackage : packageCapabilities
      = itemsOf (Members.lookup "capabilities" pkg') ++ capabilities.map compiledCapability := by
    rw [upsertById_ok (List.forall_mem_map.mpr hnew) hpackage, List.map_map]
    rfl
  subst h hpackage
  have hother : ∀ key, key ≠ "capabilities" → memberAt key (.obj (Members.set "capabilities" (.arr (itemsOf
      (Members.lookup "capabilities" pkg') ++ capabilities.map compiledCapability)) pkg'))
        = memberAt key (.obj pkg') := by
    intro key hkey
    rw [memberAt, memberAt, membersOf, membersOf, Members.lookup_set, if_neg (Ne.symm hkey)]
  have hbindings : bindingsOf (.obj (Members.set "capabilities" (.arr (itemsOf
      (Members.lookup "capabilities" pkg') ++ capabilities.map compiledCapability)) pkg'))
        = bindingsOf (.obj pkg') := congrArg membersOf (hother _ (by decide))
  refine ⟨⟨?_, ?_, ?_, ?_, ?_⟩, hbindings⟩
  · exact (congrArg itemsOf (hother _ (by decide))).trans hbefore.agents
  · exact (congrArg itemsOf (hother _ (by decide))).trans hbefore.skills
  · have hcapabilities := hbefore.capabilities
    rw [List.map_nil, List.append_nil] at hcapabilities
    rw [← hcapabilities, itemsAt, memberAt, membersOf, Members.lookup_set, if_pos rfl]
    rfl
  · intro nodeId capabilityId hbound
    rw [hbindings]
    exact hbefore.bindings nodeId capabilityId hbound
  · intro key hkey
    rw [← hbefore.others key hkey]
    refine hother key ?_
    rintro rfl
    exact hkey (by decide)

/-! ## References of nodes and bindings -/

/-- The agents that nodes refer to. -/
def agentRefs (nodes : List Json) : List String := nodes.filterMap fun node => agentRefOf (configOf node)

/-- The skills that nodes refer to. -/
def skillRefs (nodes : List Json) : List String := nodes.flatMap fun node => skillRefsOf (configOf node)

theorem mem_agentRefs {nodes : List Json} {agentRef : String} (hne : agentRef ≠ "") :
    agentRef ∈ agentRefs nodes
      ↔ ∃ node ∈ nodes, Members.lookup "agentRef" (configOf node) = some (.str agentRef) := by
  rw [agentRefs, List.mem_filterMap]
  refine exists_congr fun node => and_congr_right fun _ => ?_
  rw [agentRefOf, Option.filter_eq_some_iff, textOf_eq_some]
  exact and_iff_left (decide_eq_true hne)

theorem mem_skillRefs {nodes : List Json} {skillId : String} : skillId ∈ skillRefs nodes
    ↔ ∃ node ∈ nodes, .str skillId ∈ itemsOf (Members.lookup "skillRefs" (configOf node)) := by
  rw [skillRefs, List.mem_flatMap]
  refine exists_congr fun node => and_congr_right fun _ => ?_
  rw [skillRefsOf, List.mem_filterMap]
  constructor
  · rintro ⟨item, hitem, htext⟩
    rwa [Option.some_inj.mp (textOf_eq_some.mp htext)] at hitem
  · exact fun h => ⟨_, h, rfl⟩

theorem mem_boundIds {pkg : List (String × Json)} {capabilityId : String} :
    capabilityId ∈ boundIds pkg ↔ ∃ nodeId, (nodeId, .str capabilityId) ∈ bindingsOf (.obj pkg) := by
  rw [boundIds, List.mem_filterMap]
  constructor
  · rintro ⟨⟨nodeId, value⟩, hmem, htext⟩
    exact ⟨nodeId, Option.some_inj.mp (textOf_eq_some.mp htext) ▸ hmem⟩
  · rintro ⟨nodeId, hmem⟩
    exact ⟨_, hmem, rfl⟩

/-- What is collected of a package and nodes. -/
structure Collects (registries : Registries) (pkg : Json) (nodes : List Json) (agents : List AgentRegistration)
    (skills : List SkillRegistration) : Prop where
  readableAgents : Readable (itemsAt "agents" pkg)
  readableSkills : Readable (itemsAt "skills" pkg)
  readableNodes : Readable nodes
  missingAgents : missing (·.id) registries.agents (idsIn (itemsAt "agents" pkg)) (agentRefs nodes) = agents
  missingSkills : missing (·.id) registries.skills (idsIn (itemsAt "skills" pkg))
    (skillRefs nodes ++ agents.flatMap (·.skillIds)) = skills

theorem collectReferences_iff {registries : Registries} {pkg : List (String × Json)} {nodes : List Json}
    {agents : List AgentRegistration} {skills : List SkillRegistration} :
    collectReferences registries pkg nodes = .ok (agents, skills)
      ↔ Collects registries (.obj pkg) nodes agents skills := by
  have hagents : (nodes.map (memberAt "config")).map membersOf = nodes.map configOf := by
    rw [List.map_map]
    rfl
  constructor
  · intro h
    simp only [collectReferences, bind_eq_ok, embeddedIds_iff, mapM_property_iff, pure_eq_ok] at h
    obtain ⟨_, ⟨hreadableAgents, rfl⟩, _, ⟨hreadableSkills, rfl⟩, _, ⟨hreadableNodes, rfl⟩, h⟩ := h
    rw [hagents, List.filterMap_map, List.flatMap_map, Prod.mk.injEq] at h
    obtain ⟨rfl, rfl⟩ := h
    exact ⟨hreadableAgents, hreadableSkills, hreadableNodes, rfl, rfl⟩
  · rintro ⟨hreadableAgents, hreadableSkills, hreadableNodes, rfl, rfl⟩
    simp only [collectReferences, bind_eq_ok, embeddedIds_iff, mapM_property_iff, pure_eq_ok]
    refine ⟨_, ⟨hreadableAgents, rfl⟩, _, ⟨hreadableSkills, rfl⟩, _, ⟨hreadableNodes, rfl⟩, ?_⟩
    rw [hagents, List.filterMap_map, List.flatMap_map]
    rfl

theorem missingCapabilities_iff {registries : Registries} {pkg : List (String × Json)}
    {capabilities : List CapabilityRegistration} : missingCapabilities registries pkg = .ok capabilities
      ↔ Readable (itemsAt "capabilities" (.obj pkg)) ∧ missing (·.id) registries.capabilities
          (idsIn (itemsAt "capabilities" (.obj pkg))) (boundIds pkg) = capabilities := by
  simp only [missingCapabilities, bind_eq_ok, embeddedIds_iff, pure_eq_ok]
  constructor
  · rintro ⟨_, ⟨hreadable, rfl⟩, h⟩
    exact ⟨hreadable, h⟩
  · rintro ⟨hreadable, h⟩
    exact ⟨_, ⟨hreadable, rfl⟩, h⟩

/-! ## One pass is enough -/

/-- **A package and nodes that nothing is missing for.** -/
structure Settled (registries : Registries) (pkg : Json) (nodes : List Json) : Prop where
  readableAgents : Readable (itemsAt "agents" pkg)
  readableSkills : Readable (itemsAt "skills" pkg)
  readableCapabilities : Readable (itemsAt "capabilities" pkg)
  readableNodes : Readable nodes
  complete : Complete registries pkg nodes

theorem readable_append_map {α : Type} {idOf : α → String} {compiled : α → Json}
    (hcompiled : ∀ entry, memberAt "id" (compiled entry) = some (.str (idOf entry))) {items : List Json}
    (h : Readable items) (entries : List α) : Readable (items ++ entries.map compiled) := by
  intro item hitem
  rcases List.mem_append.mp hitem with hitem | hitem
  · exact h item hitem
  · obtain ⟨entry, -, rfl⟩ := List.mem_map.mp hitem
    intro hnull
    have hid := hcompiled entry
    rw [hnull] at hid
    cases hid

/-- **What was missing completes a package**: nodes that are filled refer to nothing that is not embedded. -/
theorem Extends.settled {registries : Registries} {pkg pkg' : List (String × Json)} {nodes : List Json}
    {agents : List AgentRegistration} {skills : List SkillRegistration}
    {capabilities : List CapabilityRegistration}
    (h : Extends agents skills capabilities (.obj pkg) (.obj pkg'))
    (hcollects : Collects registries (.obj pkg) nodes agents skills)
    (hreadable : Readable (itemsAt "capabilities" (.obj pkg)))
    (hcapabilities : missing (·.id) registries.capabilities (idsIn (itemsAt "capabilities" (.obj pkg)))
      (boundIds pkg') = capabilities) :
    Settled registries (.obj pkg') (nodes.map (fillNode agents)) where
  readableAgents := by
    rw [h.agents]
    exact readable_append_map (fun _ => rfl) hcollects.readableAgents agents
  readableSkills := by
    rw [h.skills]
    exact readable_append_map (fun _ => rfl) hcollects.readableSkills skills
  readableCapabilities := by
    rw [h.capabilities]
    exact readable_append_map (fun _ => rfl) hreadable capabilities
  readableNodes := readable_map_fillNode hcollects.readableNodes
  complete := by
    refine ⟨?_, ?_, ?_⟩
    · intro node' hnode' agentRef href hresolves
      obtain ⟨node, hnode, rfl⟩ := List.mem_map.mp hnode'
      rw [agentRef_fillNode] at href
      obtain ⟨agent, hagent⟩ := id hresolves
      have hne : agentRef ≠ "" := registered_id hagent ▸ agent.id_ne
      rw [h.agents, ← hcollects.missingAgents]
      exact embedded_of_resolves (fun _ => rfl) ((mem_agentRefs hne).mpr ⟨node, hnode, href⟩) hresolves
    · intro node' hnode' skillId href hresolves
      obtain ⟨node, hnode, rfl⟩ := List.mem_map.mp hnode'
      have hmem : skillId ∈ skillRefs nodes ++ agents.flatMap (·.skillIds) := by
        rcases skillRefs_fillNode href with href | ⟨agent, hagent, hskill⟩
        · exact List.mem_append_left _ (mem_skillRefs.mpr ⟨node, hnode, href⟩)
        · exact List.mem_append_right _ (List.mem_flatMap.mpr ⟨agent, hagent, hskill⟩)
      rw [h.skills, ← hcollects.missingSkills]
      exact embedded_of_resolves (fun _ => rfl) hmem hresolves
    · intro nodeId capabilityId hbound hresolves
      rw [h.capabilities, ← hcapabilities]
      exact embedded_of_resolves (fun _ => rfl) (mem_boundIds.mpr ⟨nodeId, hbound⟩) hresolves

/-- **Nothing is missing in a complete package.** -/
theorem materializeDocuments_of_settled {registries : Registries} {pkg spec : List (String × Json)}
    (h : Settled registries (.obj pkg) (itemsOf (Members.lookup "nodes" spec))) :
    materializeDocuments registries pkg spec = .ok none := by
  have hcollects : collectReferences registries pkg (itemsOf (Members.lookup "nodes" spec)) = .ok ([], []) := by
    refine collectReferences_iff.mpr
      ⟨h.readableAgents, h.readableSkills, h.readableNodes, missing_eq_nil ?_, missing_eq_nil ?_⟩
    · rintro agentRef href ⟨agent, hagent⟩
      have hne : agentRef ≠ "" := registered_id hagent ▸ agent.id_ne
      obtain ⟨node, hnode, hlookup⟩ := (mem_agentRefs hne).mp href
      exact h.complete.agents node hnode agentRef hlookup ⟨agent, hagent⟩
    · intro skillId href hresolves
      rw [List.flatMap_nil, List.append_nil] at href
      obtain ⟨node, hnode, hmem⟩ := mem_skillRefs.mp href
      exact h.complete.skills node hnode skillId hmem hresolves
  have hcapabilities : missingCapabilities registries pkg = .ok [] := by
    refine missingCapabilities_iff.mpr ⟨h.readableCapabilities, missing_eq_nil ?_⟩
    intro capabilityId hbound hresolves
    obtain ⟨nodeId, hmem⟩ := mem_boundIds.mp hbound
    exact h.complete.capabilities nodeId capabilityId hmem hresolves
  rw [materializeDocuments, hcollects, ok_bind]
  show (missingCapabilities registries pkg >>= _) = _
  rw [hcapabilities]
  rfl

/-- A package and a specification before and after one pass. -/
structure Materializes (registries : Registries) (pkg spec pkg' spec' : List (String × Json)) : Prop where
  settled : Settled registries (.obj pkg') (itemsOf (Members.lookup "nodes" spec'))
  contracts : KeepsContracts (.obj pkg) (.obj pkg')
  nodes : List.Forall₂ KeepsNode (itemsOf (Members.lookup "nodes" spec)) (itemsOf (Members.lookup "nodes" spec'))
  spec : ∀ key, key ≠ "nodes" → Members.lookup key spec' = Members.lookup key spec

theorem lookup_storeNodes (nodes : List Json) (spec : List (String × Json)) {key : String} (hkey : key ≠ "nodes") :
    Members.lookup key (storeNodes nodes spec) = Members.lookup key spec := by
  rw [storeNodes]
  split
  · rw [Members.lookup_set, if_neg (Ne.symm hkey)]
  · rfl

theorem nodes_storeNodes (f : Json → Json) (spec : List (String × Json)) :
    itemsOf (Members.lookup "nodes" (storeNodes ((itemsOf (Members.lookup "nodes" spec)).map f) spec))
      = (itemsOf (Members.lookup "nodes" spec)).map f := by
  rw [storeNodes]
  match hnodes : Members.lookup "nodes" spec with
  | some (.arr nodes) =>
    dsimp only
    rw [Members.lookup_set, if_pos rfl]
    rfl
  | none | some .null | some (.bool _) | some (.num _) | some (.str _) | some (.obj _) =>
    dsimp only
    rw [hnodes]
    rfl

/-- **One pass settles the documents and keeps what was there.** -/
theorem materializeDocuments_ok {registries : Registries} {pkg spec : List (String × Json)}
    {documents : Option (List (String × Json) × List (String × Json))}
    (h : materializeDocuments registries pkg spec = .ok documents) :
    Materializes registries pkg spec (documents.getD (pkg, spec)).1 (documents.getD (pkg, spec)).2 := by
  rw [materializeDocuments, bind_eq_ok] at h
  obtain ⟨⟨agents, skills⟩, hcollect, h⟩ := h
  obtain ⟨⟨pkg', nodes'⟩, hcontracts, h⟩ := bind_eq_ok.mp h
  obtain ⟨capabilities, hcapabilities, h⟩ := bind_eq_ok.mp h
  obtain ⟨pkg'', hembed, h⟩ := bind_eq_ok.mp h
  rw [pure_eq_ok] at h
  have hcollects := collectReferences_iff.mp hcollect
  -- The first stage, which does nothing if no agents and no skills are missing.
  have hfirst : Extends agents skills [] (.obj pkg) (.obj pkg') ∧
      nodes' = (itemsOf (Members.lookup "nodes" spec)).map (fillNode agents) := by
    rw [embedContracts] at hcontracts
    split at hcontracts
    · next hnone =>
      rw [Bool.and_eq_true, List.isEmpty_iff, List.isEmpty_iff] at hnone
      obtain ⟨rfl, rfl⟩ := hnone
      obtain ⟨rfl, rfl⟩ := Prod.mk.inj (Except.ok.inj hcontracts)
      exact ⟨.refl _, (map_fillNode_nil _).symm⟩
    · refine materializeAgentContracts_ok ?_ ?_ hcontracts
      · exact fun agent hagent => not_embedded_of_missing (hcollects.missingAgents ▸ hagent)
      · exact fun skill hskill => not_embedded_of_missing (hcollects.missingSkills ▸ hskill)
  obtain ⟨hextends, rfl⟩ := hfirst
  obtain ⟨hreadable, hmissing⟩ := missingCapabilities_iff.mp hcapabilities
  have hsame : itemsAt "capabilities" (.obj pkg') = itemsAt "capabilities" (.obj pkg) := by
    rw [hextends.capabilities, List.map_nil, List.append_nil]
  have hnew : ∀ capability ∈ capabilities, ¬Embedded (itemsAt "capabilities" (.obj pkg')) capability.id := by
    intro capability hcapability
    rw [← hmissing] at hcapability
    have hid := not_embedded_of_missing hcapability
    exact hid
  obtain ⟨hfinal, hbindings⟩ := embedCapabilities_ok hextends hnew hembed
  have hbound : boundIds pkg'' = boundIds pkg' := by
    show (bindingsOf (.obj pkg'')).filterMap (fun member => textOf (some member.2)) = _
    rw [hbindings]
    rfl
  rw [hsame, ← hbound] at hmissing
  have hsettled := hfinal.settled hcollects (hsame ▸ hreadable) hmissing
  have hnodes : List.Forall₂ KeepsNode (itemsOf (Members.lookup "nodes" spec))
      ((itemsOf (Members.lookup "nodes" spec)).map (fillNode agents)) := by
    rw [List.forall₂_map_right_iff]
    exact List.forall₂_same.mpr fun node _ => keepsNode_fillNode agents node
  subst h
  split
  · next hnone =>
    rw [Bool.and_eq_true, Bool.and_eq_true, List.isEmpty_iff, List.isEmpty_iff, List.isEmpty_iff] at hnone
    obtain ⟨⟨rfl, rfl⟩, rfl⟩ := hnone
    rw [map_fillNode_nil] at hsettled hnodes
    obtain ⟨rfl, -⟩ := Prod.mk.inj (Except.ok.inj hcontracts)
    obtain rfl := Except.ok.inj hembed
    exact ⟨hsettled, hfinal.keepsContracts, hnodes, fun _ _ => rfl⟩
  · refine ⟨?_, hfinal.keepsContracts, ?_, fun key hkey => lookup_storeNodes _ spec hkey⟩
    · rw [Option.getD_some, nodes_storeNodes]
      exact hsettled
    · rw [Option.getD_some, nodes_storeNodes]
      exact hnodes

/-! ## Sources -/

theorem object?_eq_some {document : Json} {members : List (String × Json)} :
    object? document = some members ↔ document = .obj members := by
  match document with
  | .obj other => simp [object?]
  | .null | .bool _ | .num _ | .str _ | .arr _ => simp [object?]

/-- A run on sources is one on the documents they are parsed to. -/
theorem materializeRegisteredContracts_ok {yaml : Yaml} {sources result : AuthoringSources} {registries : Registries}
    {materialized : Bool}
    (h : materializeRegisteredContracts yaml sources registries = .ok (result, materialized)) :
    ∃ pkg workflow spec documents, yaml.parse sources.packageSource = .ok (.obj pkg) ∧
      yaml.parse sources.workflowSource = .ok (.obj workflow) ∧
      Members.lookup "spec" workflow = some (.obj spec) ∧
      materializeDocuments registries pkg spec = .ok documents ∧
      (documents = none ∧ result = sources ∧ materialized = false ∨
        ∃ pkg' spec', documents = some (pkg', spec') ∧ materialized = true ∧
          result = ⟨yaml.stringify (.obj pkg'), yaml.stringify (.obj (Members.set "spec" (.obj spec') workflow))⟩) := by
  simp only [materializeRegisteredContracts, bind_eq_ok, orThrow_eq_ok, object?_eq_some, pure_eq_ok,
    Option.bind_eq_some_iff] at h
  obtain ⟨_, hpkg, _, hworkflow, pkg, rfl, workflow, rfl, spec, ⟨_, hspec, rfl⟩, documents, hdocuments, h⟩ := h
  refine ⟨pkg, workflow, spec, documents, hpkg, hworkflow, hspec, hdocuments, ?_⟩
  rcases documents with _ | ⟨pkg', spec'⟩
  · obtain ⟨rfl, rfl⟩ := Prod.mk.inj h
    exact .inl ⟨rfl, rfl, rfl⟩
  · obtain ⟨rfl, rfl⟩ := Prod.mk.inj h
    exact .inr ⟨pkg', spec', rfl, rfl, rfl⟩

/-- Sources that nothing is missing in are returned as they are. -/
theorem materializeRegisteredContracts_of_none {yaml : Yaml} {sources : AuthoringSources} {registries : Registries}
    {pkg workflow spec : List (String × Json)} (hpkg : yaml.parse sources.packageSource = .ok (.obj pkg))
    (hworkflow : yaml.parse sources.workflowSource = .ok (.obj workflow))
    (hspec : Members.lookup "spec" workflow = some (.obj spec))
    (h : materializeDocuments registries pkg spec = .ok none) :
    materializeRegisteredContracts yaml sources registries = .ok (sources, false) := by
  rw [materializeRegisteredContracts, hpkg, hworkflow, ok_bind, ok_bind]
  simp only [object?, orThrow, hspec, Option.bind_some, ok_bind, h]
  rfl

/-- A pass over documents that were written. -/
theorem materialize_eq {yaml : Yaml} {registries : Registries} {pkg pkg' workflow spec spec' : List (String × Json)}
    (hspec : Members.lookup "spec" workflow = some (.obj spec))
    (h : materializeDocuments registries pkg spec = .ok (some (pkg', spec'))) :
    materializeRegisteredContracts yaml ⟨yaml.stringify (.obj pkg), yaml.stringify (.obj workflow)⟩ registries
      = .ok (⟨yaml.stringify (.obj pkg'), yaml.stringify (.obj (Members.set "spec" (.obj spec') workflow))⟩,
          true) := by
  rw [materializeRegisteredContracts, yaml.parse_stringify, yaml.parse_stringify, ok_bind, ok_bind]
  simp only [object?, orThrow, hspec, Option.bind_some, ok_bind, h]
  rfl

namespace Sample

/-- The registries with the agent. -/
def registries : Registries where
  agents := [reviewer]
  skills := []
  capabilities := []

/-- A node that refers to the agent and has a role. -/
def referring (role : Json) : Json :=
  .obj [("id", .str "review"), ("kind", .str "evaluate"), ("role", role),
    ("config", .obj [("agentRef", .str "reviewer")])]

/-- A workflow with the node. -/
def reviewing (role : Json) : List (String × Json) := [("nodes", .arr [referring role])]

/-- The workflow after the node was filled. -/
def reviewed (role : Json) : List (String × Json) := [("nodes", .arr [fillNode [reviewer] (referring role)])]

/-- The package with the agent. -/
def pkgWithContracts : List (String × Json) :=
  [("kind", .str "DomainPackage"), ("agents", .arr [compiledAgent reviewer]), ("skills", .arr []),
    ("modelProfiles", texts ["model.standard.v1"]), ("bindings", .obj [])]

/-- How the package is written, after its first character. -/
def contractsText : String :=
  "ind: DomainPackage\nagents:\n" ++
  "  - id: reviewer\n    name: Reviewer\n    description: Reviews risk\n    role: Analyst\n" ++
  "    prompt: Review risk.\n    modelProfileId: model.standard.v1\n    runtimeTarget: local_http\n" ++
  "    skillIds: []\n    caseWrites: []\n    inputSchema:\n      type: object\n" ++
  "    outputSchema:\n      type: object\n    version: 0.1.0\n" ++
  "skills: []\nmodelProfiles:\n  - model.standard.v1\nbindings: {}\n"

/-- The library, writing the package with the agent and the workflow that was filled in block style. -/
noncomputable def contractsYaml (role : Json) (roleText : String) : Yaml := .ofTable
  [(.obj pkgWithContracts, 'k', contractsText),
    (.obj (workflow (reviewed role)), 's', "pec:\n  nodes:\n" ++
      "    - id: review\n      kind: evaluate\n      role: " ++ roleText ++ "\n      config:\n" ++
      "        agentRef: reviewer\n        caseWrites: []\n        skillRefs: []\n" ++
      "        modelProfileId: model.standard.v1\n        runtimeTarget: local_http\n" ++
      "      inputSchema:\n        type: object\n      outputSchema:\n        type: object\n" ++
      "      prompt: Review risk.\n")]
  ⟨List.forall_mem_cons.mpr ⟨show StartsNoJson 'k' by decide,
    List.forall_mem_cons.mpr ⟨show StartsNoJson 's' by decide, nofun⟩⟩, show ['k', 's'].Nodup by decide⟩

theorem materialize_reviewing (yaml : Yaml) (role : Json) :
    materializeRegisteredContracts yaml (sources yaml pkg (reviewing role)) registries
      = .ok (sources yaml pkgWithContracts (reviewed role), true) := by
  have hcollect : collectReferences registries pkg [referring role] = .ok ([reviewer], []) := by rfl
  have hagents : materializeAgentContracts [reviewer] [] pkg [referring role]
      = .ok (pkgWithContracts, [fillNode [reviewer] (referring role)]) := by rfl
  have hcapabilities : missingCapabilities registries pkgWithContracts = .ok [] := by rfl
  have hdocuments : materializeDocuments registries pkg (reviewing role)
      = .ok (some (pkgWithContracts, reviewed role)) := by
    rw [materializeDocuments]
    show (collectReferences registries pkg [referring role] >>= _) = _
    rw [hcollect, ok_bind]
    show (materializeAgentContracts [reviewer] [] pkg [referring role] >>= _) = _
    rw [hagents, ok_bind]
    show (missingCapabilities registries pkgWithContracts >>= _) = _
    rw [hcapabilities]
    rfl
  exact materialize_eq rfl hdocuments

theorem fillNode_referring (role : Json) :
    fillNode [reviewer] (referring role) = .obj (fillMembers reviewer (membersOf (some (referring role)))) := by
  rfl

end Sample

/-- **Materializing is idempotent, conservative and complete.** A second run changes nothing; contracts,
bindings and fields that were authored with their type are kept; and what nodes and bindings refer to is
embedded if it is registered. -/
theorem materialize_closure {yaml : Yaml} {sources result : AuthoringSources} {registries : Registries}
    {materialized : Bool}
    (h : materializeRegisteredContracts yaml sources registries = .ok (result, materialized)) :
    materializeRegisteredContracts yaml result registries = .ok (result, false) ∧
      ∃ pkg workflow pkg' workflow', yaml.parse sources.packageSource = .ok pkg ∧
        yaml.parse sources.workflowSource = .ok workflow ∧ yaml.parse result.packageSource = .ok pkg' ∧
        yaml.parse result.workflowSource = .ok workflow' ∧ KeepsContracts pkg pkg' ∧
        KeepsWorkflow workflow workflow' ∧ Complete registries pkg' (nodesOf workflow') := by
  obtain ⟨pkg, workflow, spec, documents, hpkg, hworkflow, hspec, hdocuments, hresult⟩ :=
    materializeRegisteredContracts_ok h
  have hmaterializes := materializeDocuments_ok hdocuments
  have hspecOf : specOf (.obj workflow) = spec := by
    rw [specOf, membersOf, hspec, membersOf]
  rcases hresult with ⟨rfl, rfl, -⟩ | ⟨pkg', spec', rfl, -, rfl⟩
  · refine ⟨materializeRegisteredContracts_of_none hpkg hworkflow hspec hdocuments,
      _, _, _, _, hpkg, hworkflow, hpkg, hworkflow, hmaterializes.contracts, ⟨?_, ?_, ?_⟩, ?_⟩
    · exact List.forall₂_same.mpr fun node _ => keepsNode_refl node
    · exact fun _ _ => rfl
    · exact fun _ _ => rfl
    · rw [nodesOf, hspecOf]
      exact hmaterializes.settled.complete
  · rw [Option.getD_some] at hmaterializes
    have hspec' : Members.lookup "spec" (Members.set "spec" (.obj spec') workflow) = some (.obj spec') := by
      rw [Members.lookup_set, if_pos rfl]
    have hspecOf' : specOf (.obj (Members.set "spec" (.obj spec') workflow)) = spec' := by
      rw [specOf, membersOf, hspec', membersOf]
    have hsecond := materializeDocuments_of_settled hmaterializes.settled
    refine ⟨materializeRegisteredContracts_of_none (yaml.parse_stringify _) (yaml.parse_stringify _)
        hspec' hsecond, _, _, _, _, hpkg, hworkflow, yaml.parse_stringify _, yaml.parse_stringify _,
      hmaterializes.contracts, ⟨?_, ?_, ?_⟩, ?_⟩
    · rw [nodesOf, nodesOf, hspecOf, hspecOf']
      exact hmaterializes.nodes
    · rw [hspecOf, hspecOf']
      exact hmaterializes.spec
    · intro key hkey
      rw [memberAt, membersOf, Members.lookup_set, if_neg (Ne.symm hkey)]
      rfl
    · rw [nodesOf, hspecOf']
      exact hmaterializes.settled.complete

open Sample in
theorem materialize_sample :
    let library := contractsYaml (.str "Auditor") "Auditor"
    let result := sources library pkgWithContracts (reviewed (.str "Auditor"))
    materializeRegisteredContracts library result registries = .ok (result, false) ∧
      ∃ pkg' workflow' pkg'' workflow'',
        library.parse (sources library pkg (reviewing (.str "Auditor"))).packageSource = .ok pkg' ∧
        library.parse (sources library pkg (reviewing (.str "Auditor"))).workflowSource = .ok workflow' ∧
        library.parse result.packageSource = .ok pkg'' ∧ library.parse result.workflowSource = .ok workflow'' ∧
        KeepsContracts pkg' pkg'' ∧ KeepsWorkflow workflow' workflow'' ∧
        Complete registries pkg'' (nodesOf workflow'') :=
  materialize_closure (materialize_reviewing _ _)

open Sample in
/-- A role that is a number was authored, and is overwritten. -/
theorem materialize_overwrites_role :
    let library := contractsYaml (.nat 42) "Analyst"
    materializeRegisteredContracts library (sources library pkg (reviewing (.nat 42))) registries
        = .ok (sources library pkgWithContracts (reviewed (.nat 42)), true) ∧
      (nodesOf (.obj (workflow (reviewing (.nat 42))))).map (memberAt "role") = [some (.nat 42)] ∧
      (nodesOf (.obj (workflow (reviewed (.nat 42))))).map (memberAt "role") = [some (.str "Analyst")] := by
  refine ⟨materialize_reviewing _ _, rfl, ?_⟩
  show [memberAt "role" (fillNode [reviewer] (referring (.nat 42)))] = _
  rw [fillNode_referring, memberAt_fillMembers _ _ _ (by decide), if_neg (by decide), if_pos rfl]
  rfl

end ControlApi

end HarnessFramework
