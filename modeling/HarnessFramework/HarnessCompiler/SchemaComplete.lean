import HarnessFramework.Contracts.Schemas
import HarnessFramework.HarnessCompiler.Compile

/-!
# Emitted plans are schema-complete

A plan that `compile` emits has every member that `harnessPlanSchema` has a default for: the typed
members of a capability are all written, `fill_array_defaults` adds those of skills and agents, and a
node always has a config. So parsing the plan changes nothing.

## Main definitions

* `Defaulted` — the fields in which a default may be filled in

## Main results

* `complete_object` — an object is complete when those fields are there and complete
* `complete_document` — emitted plans are complete
* `parse_emitted` — parsing an emitted plan rejects it or returns the same value
-/

namespace HarnessFramework

namespace HarnessCompiler

open Schema

/-! ## Members of what JavaScript reads -/

theorem lastMember_of_mem {members : List (String × Json)} (hnodup : (members.map Prod.fst).Nodup)
    {member : String × Json} (h : member ∈ members) : lastMember member.1 members = some member.2 := by
  induction members with
  | nil => cases h
  | cons head members ih =>
    rw [List.map_cons, List.nodup_cons] at hnodup
    rw [lastMember]
    rcases List.mem_cons.mp h with rfl | h
    · have hnone : lastMember member.1 members = none := by
        cases hlast : lastMember member.1 members with
        | none => rfl
        | some value => exact absurd (List.mem_map_of_mem (mem_of_lastMember hlast)) hnodup.1
      rw [hnone, if_pos rfl, Option.none_or]
    · rw [ih hnodup.2 h, Option.some_or]

/-- A member of an object, as JavaScript reads it. -/
theorem lastMember_toJs {members : List (String × Value)} (hnodup : (members.map Prod.fst).Nodup)
    {key : String} {value : Value} (h : (key, value) ∈ members) :
    lastMember key (enumerate (membersToJs members)) = some value.toJs := by
  have hperm := enumerate_perm (membersToJs members)
  rw [membersToJs_eq_map] at hperm ⊢
  have hkeys : ((enumerate (members.map fun m => (m.1, m.2.toJs))).map Prod.fst).Nodup := by
    rw [(hperm.map Prod.fst).nodup_iff, List.map_map]
    exact hnodup
  exact lastMember_of_mem hkeys (hperm.mem_iff.mpr (List.mem_map_of_mem h))

/-! ## Complete documents -/

/-- A default may be filled in for the field, or inside it. -/
def Defaulted (field : String × Presence × Schema) : Bool :=
  field.2.1.hasDefault || !field.2.2.NoDefaults

theorem completeFields_iff {fields : List (String × Presence × Schema)} {members : List (String × Json)} :
    CompleteFields fields members ↔ ∀ field ∈ fields, match lastMember field.1 members with
      | some value => field.2.2.Complete value
      | none => ∀ value, field.2.1 ≠ .default value := by
  induction fields with
  | nil => simp [CompleteFields]
  | cons field fields ih =>
    rw [List.forall_mem_cons, ← ih]
    rfl

/-- **An object is complete when the fields in which a default may be filled in are there and
complete.** -/
theorem complete_object {fields : List (String × Presence × Schema)} {accepts : List (String × Json) → Bool}
    {members : List (String × Value)} (hnodup : (members.map Prod.fst).Nodup)
    (h : ∀ field ∈ fields.filter Defaulted, ∃ value, (field.1, value) ∈ members ∧
      field.2.2.Complete value.toJs) :
    (Schema.object fields accepts).Complete (Value.object members).toJs := by
  rw [Value.toJs, Complete, completeFields_iff]
  intro field hfield
  cases hdefaulted : Defaulted field with
  | true =>
    obtain ⟨value, hmem, hcomplete⟩ := h field (List.mem_filter.mpr ⟨hfield, hdefaulted⟩)
    rw [lastMember_toJs hnodup hmem]
    exact hcomplete
  | false =>
    rw [Defaulted, Bool.or_eq_false_iff, Bool.not_eq_false'] at hdefaulted
    split
    · exact complete_of_noDefaults _ hdefaulted.2 _
    · intro value hpresence
      rw [hpresence] at hdefaulted
      cases hdefaulted.1

/-- A value that is no object is complete for an object schema. -/
theorem complete_of_not_object {fields : List (String × Presence × Schema)}
    {accepts : List (String × Json) → Bool} {value : Value}
    (h : ∀ members, value ≠ .object members) : (Schema.object fields accepts).Complete value.toJs := by
  cases value with
  | object members => exact absurd rfl (h members)
  | null | bool | number | string | array => simp [Value.toJs, Complete]

theorem itemsToJs_eq_map (items : List Value) : itemsToJs items = items.map Value.toJs := by
  induction items with
  | nil => rfl
  | cons item items ih => rw [itemsToJs, ih, List.map_cons]

theorem complete_array {item : Schema} (items : List Document)
    (h : ∀ document ∈ items, item.Complete document.val.toJs) :
    (Schema.array item).Complete (Document.array items).val.toJs := by
  rw [Document.array, Value.toJs, Complete, itemsToJs_eq_map]
  intro value hvalue
  obtain ⟨value', hvalue', rfl⟩ := List.mem_map.mp hvalue
  obtain ⟨document, hdocument, rfl⟩ := List.mem_map.mp hvalue'
  exact h document hdocument

theorem nodup_object {members : List (String × Document)} (h : (members.map Prod.fst).Nodup) :
    ((members.map fun m => (m.1, m.2.val)).map Prod.fst).Nodup := by
  rwa [List.map_map]

/-! ## The parts of a plan -/

/-- What `fill_array_defaults` fills in is there. -/
theorem complete_fillArrayDefaults {keys : List String} (hkeys : keys.Nodup) {document : Document}
    {fields : List (String × Presence × Schema)} {accepts : List (String × Json) → Bool}
    (h : ∀ field ∈ fields.filter Defaulted, field.1 ∈ keys ∧ field.2.2.NoDefaults = true) :
    (Schema.object fields accepts).Complete (fillArrayDefaults keys document hkeys).val.toJs := by
  obtain ⟨value, hvalue⟩ := document
  cases value with
  | object members =>
    refine complete_object (nodup_addMembers hvalue.1 (by simpa [Function.comp_def] using hkeys)) ?_
    intro field hfield
    obtain ⟨hkey, hnone⟩ := h field hfield
    by_cases hmem : field.1 ∈ members.map Prod.fst
    · obtain ⟨⟨key, value⟩, hmember, hkey⟩ := List.mem_map.mp hmem
      exact ⟨value, List.mem_append_left _ (by rwa [← hkey]), complete_of_noDefaults _ hnone _⟩
    · refine ⟨.array [], List.mem_append_right _ (List.mem_filter.mpr ⟨?_, by simpa using hmem⟩),
        complete_of_noDefaults _ hnone _⟩
      exact List.mem_map.mpr ⟨field.1, hkey, rfl⟩
  | null | bool | number | string | array => exact complete_of_not_object nofun

theorem complete_skill (skill : Document) : compiledSkillSchema.Complete
    (fillArrayDefaults ["allowedCapabilityIds"] skill (by decide)).val.toJs := by
  refine complete_fillArrayDefaults _ fun field hfield => ?_
  obtain rfl := List.mem_singleton.mp hfield
  exact ⟨by decide, rfl⟩

theorem complete_agent (agent : Document) : compiledAgentSchema.Complete
    (fillArrayDefaults ["skillIds", "caseWrites"] agent (by decide)).val.toJs := by
  refine complete_fillArrayDefaults _ fun field hfield => ?_
  have hfields : field ∈ [("skillIds", Presence.default (.arr []), Schema.array (atLeast 1)),
    ("caseWrites", .default (.arr []), .array caseWriteContractSchema)] := hfield
  simp only [List.mem_cons, List.not_mem_nil, or_false] at hfields
  rcases hfields with rfl | rfl
  · exact ⟨by decide, rfl⟩
  · exact ⟨by decide, rfl⟩

theorem complete_capability (capability : Capability) :
    capabilityDefinitionSchema.Complete capability.document.val.toJs := by
  refine complete_object (nodup_object (by simp)) fun field hfield => ?_
  have hfields : field ∈ [("inputSchema", Presence.default (.obj []), Schema.record),
    ("outputSchema", .default (.obj []), .record),
    ("maxAttempts", .default (.nat 1), integer 1 10)] := hfield
  simp only [List.mem_cons, List.not_mem_nil, or_false] at hfields
  rcases hfields with rfl | rfl | rfl
  · exact ⟨capability.inputSchema.val, by simp, complete_of_noDefaults _ rfl _⟩
  · exact ⟨capability.outputSchema.val, by simp, complete_of_noDefaults _ rfl _⟩
  · exact ⟨.nat capability.maxAttempts, by simp [Document.nat], complete_of_noDefaults _ rfl _⟩

theorem complete_node (node : PlanNode) : graphNodeSchema.Complete node.document.val.toJs := by
  refine complete_object (nodup_object (by simp)) fun field hfield => ?_
  obtain rfl := List.mem_singleton.mp hfield
  exact ⟨node.config.val, by simp, complete_of_noDefaults _ rfl _⟩

/-- The graph as it is written. -/
theorem complete_graph (name : String) (nodes : List PlanNode) (edges nodeOrder : Document)
    (h : ([("apiVersion", Document.string "ladder.dev/v1alpha1"), ("name", .string name),
      ("nodes", .array (nodes.map (·.document))), ("edges", edges), ("nodeOrder", nodeOrder)].map
        Prod.fst).Nodup) :
    planGraphSchema.Complete (Document.object _ h).val.toJs := by
  refine complete_object (nodup_object h) fun field hfield => ?_
  obtain rfl := List.mem_singleton.mp hfield
  refine ⟨(Document.array (nodes.map (·.document))).val, by simp, complete_array _ ?_⟩
  intro document hdocument
  obtain ⟨node, -, rfl⟩ := List.mem_map.mp hdocument
  exact complete_node node

/-- What `compile` fills in. -/
theorem compile_defaults {sha256 : List Char → String} {spell : JsonNumber → List Char}
    {sources : Sources} {plan : CompiledPlan} (h : compile sha256 spell sources = .ok plan) :
    (∀ skill ∈ plan.skills, compiledSkillSchema.Complete skill.val.toJs) ∧
      ∀ agent ∈ plan.agents, compiledAgentSchema.Complete agent.val.toJs := by
  simp only [compile, Checks.bind_eq_ok, Checks.orThrow_eq_ok, Checks.pure_eq_ok] at h
  obtain ⟨_, -, _, -, _, -, _, -, _, -, rfl⟩ := h
  constructor
  · intro skill hskill
    obtain ⟨skill', -, rfl⟩ := List.mem_map.mp hskill
    exact complete_skill skill'
  · intro agent hagent
    obtain ⟨agent', -, rfl⟩ := List.mem_map.mp hagent
    exact complete_agent agent'

/-- **An emitted plan has every member with a default.** -/
theorem complete_document {sha256 : List Char → String} {spell : JsonNumber → List Char}
    {sources : Sources} {plan : CompiledPlan} (h : compile sha256 spell sources = .ok plan) :
    harnessPlanSchema.Complete (plan.document sha256 spell).val.toJs := by
  obtain ⟨hskills, hagents⟩ := compile_defaults h
  refine complete_object (nodup_object (by simp [CompiledPlan.contentMembers])) fun field hfield => ?_
  have hfields : field ∈ [("skills", Presence.optional, Schema.array compiledSkillSchema),
    ("agents", .optional, .array compiledAgentSchema),
    ("capabilities", .required, .array capabilityDefinitionSchema),
    ("graph", .required, planGraphSchema)] := hfield
  simp only [List.mem_cons, List.not_mem_nil, or_false] at hfields
  rcases hfields with rfl | rfl | rfl | rfl
  · exact ⟨_, by simp [CompiledPlan.contentMembers], complete_array _ hskills⟩
  · exact ⟨_, by simp [CompiledPlan.contentMembers], complete_array _ hagents⟩
  · refine ⟨_, by simp [CompiledPlan.contentMembers], complete_array
      (plan.capabilities.map (·.document)) fun document hdocument => ?_⟩
    obtain ⟨capability, -, rfl⟩ := List.mem_map.mp hdocument
    exact complete_capability capability
  · refine ⟨_, ?_, complete_graph plan.graphName plan.nodes (.array (plan.edges.map (·.document)))
      (.strings plan.nodeOrder) (by simp)⟩
    simp [CompiledPlan.contentMembers]

/-! ## Parsing an emitted plan -/

namespace Sample

/-- A digest of 64 digits. -/
def hexDigest (_ : List Char) : String := String.ofList (List.replicate 64 'a')

/-- A text under each key. -/
def texts (members : List (String × String)) (h : (members.map Prod.fst).Nodup) : Document :=
  .object (members.map fun m => (m.1, .string m.2)) (by simpa [Function.comp_def] using h)

/-- A package whose skill names no capabilities. -/
def skilled : Sources where
  package := {
    apiVersion := "harness.factory/domain-package-v1"
    kind := "DomainPackage"
    metadata := ⟨"name", "1", "domain", "objective"⟩
    budgets := .object [("maxDurationMs", .nat 1), ("maxCostUsd", .nat 0), ("maxModelCalls", .nat 0),
      ("maxCapabilityCalls", .nat 0)] (by simp)
    modelProfiles := []
    skills := [texts [("id", "skill"), ("name", "Skill"), ("description", "d"), ("instructions", "i"),
      ("version", "1")] (by simp)]
    agents := []
    capabilities := []
    bindings := ⟨[], by simp⟩ }
  analysis := ⟨true, some {
    name := "workflow"
    maxConcurrency := .nat 1
    inputs := .object [] List.nodup_nil
    outputs := .object [] List.nodup_nil
    nodes := [⟨"node", .string "input", "", .string "", .string "", .null, .null, .object [] List.nodup_nil⟩]
    edges := [] }, ["node"]⟩
  sourceConfigs := []
  profiles := []
  dependencies := []

end Sample

/-- **An emitted plan is schema-complete**: `harnessPlanSchema` rejects it or returns the same value. -/
theorem parse_emitted {sha256 : List Char → String} {spell : JsonNumber → List Char}
    {sources : Sources} {plan : CompiledPlan} (h : compile sha256 spell sources = .ok plan) :
    harnessPlanSchema.parse (plan.document sha256 spell).val.toJs = none ∨
      ∃ value, harnessPlanSchema.parse (plan.document sha256 spell).val.toJs = some value ∧
        value.SameValue (plan.document sha256 spell).val.toJs := by
  cases hparse : harnessPlanSchema.parse (plan.document sha256 spell).val.toJs with
  | none => exact .inl rfl
  | some value => exact .inr ⟨value, rfl, parse_complete _ hparse (complete_document h)⟩

open Sample in
set_option maxRecDepth 10000 in
/-- A plan that is accepted. -/
theorem parse_emitted_sample : ∃ plan value, compile hexDigest JsonNumber.toChars skilled = .ok plan ∧
    harnessPlanSchema.parse (plan.document hexDigest JsonNumber.toChars).val.toJs = some value ∧
      value.SameValue (plan.document hexDigest JsonNumber.toChars).val.toJs := by
  obtain ⟨plan, hplan, haccepted⟩ : ∃ plan, compile hexDigest JsonNumber.toChars skilled = .ok plan ∧
      (harnessPlanSchema.parse (plan.document hexDigest JsonNumber.toChars).val.toJs).isSome = true :=
    ⟨_, rfl, by decide +kernel⟩
  rcases parse_emitted hplan with hnone | ⟨value, hvalue, hsame⟩
  · rw [hnone] at haccepted
    cases haccepted
  · exact ⟨plan, value, hplan, hvalue, hsame⟩

end HarnessCompiler

end HarnessFramework
