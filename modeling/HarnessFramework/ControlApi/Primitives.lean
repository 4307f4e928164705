import HarnessFramework.ControlApi.Plans
import HarnessFramework.HarnessCompiler.SchemaComplete

/-!
# Diagnostics of primitives

`validatePrimitiveConfig` of `apps/control-api/src/authoring.ts` looks at the config of a node as the
author wrote it, and `graphNodeSchema` at the config that the compiler emits. The normalizer of
`lgir-core`, outside the repository, writes an operation that was not given as the empty text, which the
defaults of both sides do not cover.

## Main definitions

* `validatePrimitiveConfig`
* `Normalizes` — what is known of the normalizer
* `Configured` — the author said what the node does
* `DiagnosticsAgree` — no diagnostics exactly for an emitted node that is accepted

## Main results

* `validatePrimitiveConfig_eq_nil` — no diagnostics for what is implemented
* `isSome_parse_node` — what is accepted of an emitted node
* `diagnostics_agree_iff` — exactly when diagnostics agree with the contract
-/

namespace HarnessFramework

namespace ControlApi

open HarnessCompiler Schema Checks

/-! ## The check of the editor -/

/-- `diagnostic`. -/
def diagnostic (code path message : String) : AuthoringDiagnostic := ⟨code, .error, path, message⟩

/-- `validatePrimitiveConfig`, on the kind of a node, its index and the members of its config. -/
def validatePrimitiveConfig (kind : String) (index : ℕ) (config : List (String × Json)) :
    List AuthoringDiagnostic :=
  let path := s!"workflow.spec.nodes.{index}.config."
  let operation := stringOr (if kind = "aggregator" then "collect" else "identity")
    (lastMember "operation" config)
  let mode := stringOr (stringOr "all" (lastMember "operation" config)) (lastMember "mode" config)
  (if kind = "transform" ∧ operation ∉ supportedTransformOperations then
    [diagnostic "author.transform_operation_unsupported" (path ++ "operation")
      s!"Unsupported transform operation: {operation}."] else []) ++
  (if kind = "aggregator" ∧ operation ∉ supportedAggregatorOperations then
    [diagnostic "author.aggregator_operation_unsupported" (path ++ "operation")
      s!"Unsupported aggregator operation: {operation}."] else []) ++
  (if kind = "join" ∧ mode ∉ supportedJoinModes then
    [diagnostic "author.join_mode_unsupported" (path ++ "mode")
      s!"Unsupported join mode: {mode}."] else [])

/-- **No diagnostics are reported for what is implemented.** -/
theorem validatePrimitiveConfig_eq_nil {kind : String} {index : ℕ} {config : List (String × Json)}
    (hkind : kind ∈ ["transform", "aggregator", "join"]) :
    validatePrimitiveConfig kind index config = [] ↔ primitiveSupported kind config = true := by
  simp only [List.mem_cons, List.not_mem_nil, or_false] at hkind
  rcases hkind with rfl | rfl | rfl <;> simp [validatePrimitiveConfig, primitiveSupported]

/-! ## Configs -/

/-- The members of a config, as the editor reads it. -/
def configMembers : Option Document → List (String × Json)
  | some config =>
    match config.val.toJs with
    | .obj members => members
    | _ => []
  | none => []

/-- What is known of the normalizer: of the config that the author wrote it keeps the operation, where
there is none it writes the empty text, and it does not know of modes. -/
structure Normalizes (authored : Option Document) (normalized : Document) : Prop where
  object : ∃ members, normalized.val = .object members
  operation : normalized.val.get? "operation"
    = some ((authored.bind fun config => config.val.get? "operation").getD (.string ""))
  mode : normalized.val.get? "mode" = none

/-- A member of a config, as JavaScript reads it. -/
theorem lastMember_configMembers (config : Option Document) (key : String) :
    lastMember key (configMembers config)
      = ((config.bind fun config => config.val.get? key).map Value.toJs) := by
  match config with
  | none => rfl
  | some ⟨.object members, h⟩ =>
    show lastMember key (enumerate (membersToJs members)) = (members.lookup key).map Value.toJs
    cases hlookup : members.lookup key with
    | some value =>
      obtain ⟨before, after, rfl, -⟩ := List.lookup_eq_some_iff.mp hlookup
      exact lastMember_toJs h.1 (List.mem_append_right _ List.mem_cons_self)
    | none =>
      have hkey : key ∉ members.map Prod.fst := by
        intro hmem
        obtain ⟨m, hm, hkey⟩ := List.mem_map.mp hmem
        have := List.lookup_eq_none_iff.mp hlookup m hm
        simp [hkey] at this
      cases hlast : lastMember key (enumerate (membersToJs members)) with
      | none => rfl
      | some value =>
        have hmem := (enumerate_perm _).mem_iff.mp (mem_of_lastMember hlast)
        rw [membersToJs_eq_map] at hmem
        obtain ⟨m, hm, heq⟩ := List.mem_map.mp hmem
        exact absurd (List.mem_map.mpr ⟨m, hm, (Prod.mk.inj heq).1⟩) hkey
  | some ⟨.null, _⟩ | some ⟨.bool _, _⟩ | some ⟨.number _, _⟩ | some ⟨.string _, _⟩
  | some ⟨.array _, _⟩ => rfl

theorem lookup_addMembers (target source : List (String × Value)) (key : String) :
    (addMembers target source).lookup key = (target.lookup key).or (source.lookup key) := by
  rw [addMembers, List.lookup_append]
  cases htarget : target.lookup key with
  | some value => rfl
  | none =>
    rw [Option.none_or, Option.none_or]
    have hkey : key ∉ target.map Prod.fst := by
      intro hmem
      obtain ⟨m, hm, hkey⟩ := List.mem_map.mp hmem
      have := List.lookup_eq_none_iff.mp htarget m hm
      simp [hkey] at this
    induction source with
    | nil => rfl
    | cons member source ih =>
      rw [List.filter_cons]
      by_cases hmember : member.1 = key
      · rw [if_pos (by simpa [hmember] using hkey)]
        have heq : (key == member.1) = true := by rw [hmember, beq_self_eq_true]
        rw [List.lookup_cons, List.lookup_cons, heq]
      · have hne : (key == member.1) = false := beq_eq_false_iff_ne.mpr (Ne.symm hmember)
        split
        · rw [List.lookup_cons, List.lookup_cons, hne]
          exact ih
        · rw [ih, List.lookup_cons, hne]

/-- The config that is emitted. -/
theorem get?_merged {authored : Option Document} {normalized : Document}
    (h : Normalizes authored normalized) {key : String} :
    (mergeExtensionConfig normalized authored).val.get? key
      = (normalized.val.get? key).or (authored.bind fun config => config.val.get? key) := by
  obtain ⟨⟨members, hmembers⟩, -, -⟩ := h
  obtain ⟨value, hvalue⟩ := normalized
  obtain rfl : value = .object members := hmembers
  match authored with
  | none => simp [mergeExtensionConfig]
  | some ⟨.object source, hsource⟩ => exact lookup_addMembers members source key
  | some ⟨.null, _⟩ | some ⟨.bool _, _⟩ | some ⟨.number _, _⟩ | some ⟨.string _, _⟩
  | some ⟨.array _, _⟩ => simp [mergeExtensionConfig, Value.get?]

/-- A text that is put in changes no other member. -/
theorem get?_insertString_of_ne {key text key' : String} {document config : Document}
    (h : insertString key text document = some config) (hne : key' ≠ key) :
    config.val.get? key' = document.val.get? key' := by
  unfold insertString at h
  split at h
  · obtain rfl := Option.some_inj.mp h
    show (addMembers _ _).lookup key' = _
    rw [lookup_addMembers, List.lookup_cons, beq_eq_false_iff_ne.mpr hne]
    rfl
  · cases h

section

variable {sha256 : List Char → String} {spell : JsonNumber → List Char}
  {sources : HarnessCompiler.Sources} {node : WorkflowNode} {result : HarnessCompiler.PlanNode × Option Envelope}

/-- The config that the author wrote for a node. -/
def authored (sources : HarnessCompiler.Sources) (nodeId : String) : Option Document :=
  sources.sourceConfigs.reverse.lookup nodeId

/-- **What is emitted for a node.** -/
theorem compileNode_config (h : compileNode sha256 spell sources node = .ok result)
    (hobject : ∃ members, node.config.val = .object members) :
    ∃ config : Document, result.1 = planNode node config ∧ (∃ members, config.val = .object members) ∧
      ∀ key ≠ "capabilityId", config.val.get? key = (sources.config node).val.get? key := by
  obtain ⟨members, hmembers⟩ : ∃ members, (sources.config node).val = .object members := by
    obtain ⟨members, hmembers⟩ := hobject
    obtain ⟨id, kind, name, summary, prompt, inputSchema, outputSchema, value, hvalue⟩ := node
    obtain rfl : value = .object members := hmembers
    show ∃ members', (mergeExtensionConfig ⟨.object members, hvalue⟩ _).val = .object members'
    unfold mergeExtensionConfig
    split
    · exact ⟨_, rfl⟩
    · exact ⟨_, rfl⟩
  unfold compileNode at h
  split at h
  · obtain rfl := Except.ok.inj h
    exact ⟨_, rfl, ⟨members, hmembers⟩, fun _ _ => rfl⟩
  · simp only [orThrow_bind_eq_ok, pure_eq_ok] at h
    obtain ⟨config, hconfig, capability, -, rfl⟩ := h
    refine ⟨config, rfl, ?_, fun key hkey => get?_insertString_of_ne hconfig hkey⟩
    unfold insertString at hconfig
    split at hconfig
    · obtain rfl := Option.some_inj.mp hconfig
      exact ⟨_, rfl⟩
    · cases hconfig

/-- The operation and the mode that are emitted. -/
theorem emitted_config {config : Document} (hnormalizes : Normalizes (authored sources node.id) node.config)
    (hconfig : ∀ key ≠ "capabilityId", config.val.get? key = (sources.config node).val.get? key) :
    lastMember "operation" (configMembers (some config))
        = some ((lastMember "operation" (configMembers (authored sources node.id))).getD (.str "")) ∧
      lastMember "mode" (configMembers (some config))
        = lastMember "mode" (configMembers (authored sources node.id)) := by
  simp only [lastMember_configMembers, Option.bind_some]
  rw [hconfig "operation" (by decide), hconfig "mode" (by decide),
    show sources.config node = mergeExtensionConfig node.config (authored sources node.id) from rfl,
    get?_merged hnormalizes, get?_merged hnormalizes, hnormalizes.operation, hnormalizes.mode,
    Option.some_or, Option.none_or]
  refine ⟨?_, rfl⟩
  cases (authored sources node.id).bind fun config => config.val.get? "operation" <;> rfl

/-! ## What is accepted -/

/-- The emitted node is accepted, whatever it is configured to do. -/
def OtherwiseAccepted (node : HarnessCompiler.PlanNode) : Prop :=
  ((strict graphNodeFields).parse node.document.val.toJs).isSome

/-- **What is accepted of an emitted node.** -/
theorem isSome_parse_node (node : HarnessCompiler.PlanNode) (kind : String) (hkind : node.kind = .string kind)
    (hconfig : ∃ members, node.config.val = .object members) :
    (graphNodeSchema.parse node.document.val.toJs).isSome ↔ OtherwiseAccepted node ∧
      primitiveSupported kind (configMembers (some node.config)) = true := by
  obtain ⟨config, hconfig⟩ := hconfig
  have hmembers : configMembers (some node.config) = enumerate (membersToJs config) := by
    rw [configMembers, hconfig, Value.toJs]
  obtain ⟨members, hdocument, hkeys⟩ : ∃ members : List (String × Value),
      node.document.val = .object members ∧ (members.map Prod.fst).Nodup :=
    ⟨_, rfl, node.document.2.1⟩
  have hkindMem : ("kind", Value.string kind) ∈ members := by
    obtain rfl := Value.object.inj hdocument
    simp [hkind, Document.string]
  have hconfigMem : ("config", Value.object config) ∈ members := by
    obtain rfl := Value.object.inj hdocument
    simp [hconfig]
  rw [OtherwiseAccepted, hdocument, Value.toJs, graphNodeSchema, parse_object_isSome, strict,
    parse_object_isSome]
  have hrefinement : ∀ parsed, parseFields graphNodeFields (enumerate (membersToJs members)) = some parsed →
      nodeRefinement parsed = primitiveSupported kind (configMembers (some node.config)) := by
    intro parsed hparsed
    obtain ⟨value, hvalue, hlast⟩ := lastMember_parseFields (by decide) hparsed
      ("kind", .required, oneOf ["input", "output", "agent", "tool", "transform", "condition", "evaluate",
        "join", "aggregator"]) (by simp [graphNodeFields]) (lastMember_toJs hkeys hkindMem)
    obtain ⟨value', hvalue', hlast'⟩ := lastMember_parseFields (by decide) hparsed
      ("config", .default (.obj []), .record) (by simp [graphNodeFields])
      (lastMember_toJs hkeys hconfigMem)
    obtain ⟨-, hvalue⟩ := Option.ite_none_right_eq_some.mp hvalue
    obtain rfl := Option.some_inj.mp hvalue
    obtain rfl := Option.some_inj.mp hvalue'
    rw [nodeRefinement, hlast, hlast', hmembers]
  constructor
  · rintro ⟨parsed, hparse, hparsed, haccepts⟩
    exact ⟨⟨parsed, hparse, hparsed, rfl⟩, hrefinement parsed hparsed ▸ haccepts⟩
  · rintro ⟨⟨parsed, hparse, hparsed, -⟩, hsupported⟩
    exact ⟨parsed, hparse, hparsed, (hrefinement parsed hparsed).trans hsupported⟩

/-! ## What a node is apart from its config -/

/-- Nothing, or an object. -/
def NullOrObject (document : Document) : Prop :=
  document.val = .null ∨ ∃ members, document.val = .object members

/-- What a node is, apart from its config, is what the contract takes. -/
structure WellTyped (node : WorkflowNode) : Prop where
  id : node.id ≠ ""
  summary : ∃ text, node.summary.val = .string text
  prompt : ∃ text, node.prompt.val = .string text
  inputSchema : NullOrObject node.inputSchema
  outputSchema : NullOrObject node.outputSchema

theorem isSome_atLeast_one {text : String} : ((atLeast 1).parse (.str text)).isSome ↔ text ≠ "" := by
  have hlength : 1 ≤ (Json.utf16 text).length ↔ text ≠ "" := by
    rw [Nat.one_le_iff_ne_zero, Ne, List.length_eq_zero_iff, not_iff_not]
    exact ⟨fun h => Json.utf16_injective h, fun h => by rw [h]; rfl⟩
  rw [atLeast, parse, ← hlength]
  simp

theorem isSome_string {value : Value} :
    (string.parse value.toJs).isSome ↔ ∃ text, value = .string text := by
  cases value <;> simp [string, parse, Value.toJs]

theorem isSome_nullable_record {document : Document} :
    ((nullable record).parse document.val.toJs).isSome ↔ NullOrObject document := by
  rw [NullOrObject]
  cases document.val <;> simp [parse, Value.toJs]

/-- What is emitted under each key. -/
theorem lastMember_document {node : HarnessCompiler.PlanNode} {members : List (String × Json)}
    (h : node.document.val.toJs = .obj members) :
    (∀ member ∈ members, member.1 ∈ graphNodeFields.map Prod.fst) ∧
      lastMember "id" members = some (.str node.id) ∧
      lastMember "kind" members = some node.kind.val.toJs ∧
      lastMember "name" members = some (.str node.name) ∧
      lastMember "summary" members = some node.summary.val.toJs ∧
      lastMember "prompt" members = some node.prompt.val.toJs ∧
      lastMember "inputSchema" members = some node.inputSchema.val.toJs ∧
      lastMember "outputSchema" members = some node.outputSchema.val.toJs ∧
      lastMember "config" members = some node.config.val.toJs := by
  obtain ⟨written, hwritten, hkeys⟩ : ∃ written : List (String × Value),
      node.document.val = .object written ∧ (written.map Prod.fst).Nodup :=
    ⟨_, rfl, node.document.2.1⟩
  rw [hwritten, Value.toJs] at h
  obtain rfl := Json.obj.inj h
  have hlast : ∀ key (document : Document),
      (key, document) ∈ [("id", Document.string node.id), ("kind", node.kind), ("name", .string node.name),
        ("summary", node.summary), ("prompt", node.prompt), ("inputSchema", node.inputSchema),
        ("outputSchema", node.outputSchema), ("config", node.config)] →
      lastMember key (enumerate (membersToJs written)) = some document.val.toJs := by
    intro key document hmem
    refine lastMember_toJs hkeys ?_
    obtain rfl := Value.object.inj hwritten
    exact List.mem_map.mpr ⟨_, hmem, rfl⟩
  refine ⟨fun member hmember => ?_, hlast _ (.string node.id) (by simp), hlast _ _ (by simp),
    hlast _ (.string node.name) (by simp), hlast _ _ (by simp), hlast _ _ (by simp),
    hlast _ _ (by simp), hlast _ _ (by simp), hlast _ _ (by simp)⟩
  rw [(enumerate_perm _).mem_iff, membersToJs_eq_map] at hmember
  obtain ⟨⟨key, value⟩, hvalue, rfl⟩ := List.mem_map.mp hmember
  obtain rfl := Value.object.inj hwritten
  obtain ⟨⟨key, document⟩, hdocument, heq⟩ := List.mem_map.mp hvalue
  obtain ⟨rfl, rfl⟩ := Prod.mk.inj heq
  have hkey : key ∈ graphNodeFields.map Prod.fst := List.mem_map_of_mem (f := Prod.fst) hdocument
  exact hkey

/-- **What an emitted node is, apart from its config, is accepted exactly when it is well typed.** -/
theorem otherwiseAccepted_iff {node : WorkflowNode} {config : Document} {kind : String}
    (hkind : node.kind = .string kind) (hprimitive : kind ∈ ["transform", "aggregator", "join"])
    (hconfig : ∃ members, config.val = .object members) :
    OtherwiseAccepted (planNode node config) ↔ WellTyped node := by
  obtain ⟨configured, hconfigured⟩ := hconfig
  obtain ⟨members, hmembers⟩ : ∃ members, (planNode node config).document.val.toJs = .obj members :=
    ⟨_, by rw [PlanNode.document, Document.object, Value.toJs]⟩
  obtain ⟨hdeclared, hid, hkind', hname, hsummary, hprompt, hinput, houtput, hconfig⟩ :=
    lastMember_document hmembers
  have hkinds : kind ∈ ["input", "output", "agent", "tool", "transform", "condition", "evaluate", "join",
      "aggregator"] := by
    simp only [List.mem_cons, List.not_mem_nil, or_false] at hprimitive ⊢
    tauto
  have hnameNe : (planNode node config).name ≠ "" ↔ node.id ≠ "" ∨ node.name ≠ "" := by
    show (if node.name = "" then node.id else node.name) ≠ "" ↔ _
    split <;> simp_all
  have hparse : OtherwiseAccepted (planNode node config) ↔ (parseFields graphNodeFields members).isSome := by
    rw [OtherwiseAccepted, hmembers, strict, parse, if_pos (by simpa using hdeclared)]
    cases parseFields graphNodeFields members <;> simp
  rw [hparse, isSome_parseFields]
  simp only [graphNodeFields, List.forall_mem_cons, List.not_mem_nil, false_implies, implies_true, and_true,
    hid, hkind', hname, hsummary, hprompt, hinput, houtput, hconfig, isSome_atLeast_one, isSome_string,
    isSome_nullable_record]
  have hkindParse : ((oneOf ["input", "output", "agent", "tool", "transform", "condition", "evaluate",
      "join", "aggregator"]).parse (planNode node config).kind.val.toJs).isSome = true := by
    show (Schema.parse _ node.kind.val.toJs).isSome = true
    rw [hkind, Document.string, Value.toJs, oneOf, parse, if_pos (by simpa using hkinds)]
    rfl
  have hconfigParse : (record.parse (planNode node config).config.val.toJs).isSome = true := by
    show (Schema.parse _ config.val.toJs).isSome = true
    rw [hconfigured, Value.toJs, parse]
    rfl
  constructor
  · rintro ⟨hid, -, -, hsummary, hprompt, hinput, houtput, -⟩
    exact ⟨hid, hsummary, hprompt, hinput, houtput⟩
  · rintro ⟨hid, hsummary, hprompt, hinput, houtput⟩
    exact ⟨hid, hkindParse, hnameNe.mpr (.inl hid), hsummary, hprompt, hinput, houtput, hconfigParse⟩

/-! ## Agreement -/

/-- **The author said what the node does**: an operation, or for a join a mode. -/
def Configured (kind : String) (config : List (String × Json)) : Prop :=
  lastMember "operation" config ≠ none ∨
    kind = "join" ∧ ∃ mode, lastMember "mode" config = some mode ∧ mode ≠ .null

/-- **Diagnostics agree with the contract**: there are none exactly where the emitted node is
accepted. -/
def DiagnosticsAgree (kind : String) (index : ℕ) (config : List (String × Json))
    (emitted : HarnessCompiler.PlanNode) : Prop :=
  validatePrimitiveConfig kind index config = [] ↔
    (graphNodeSchema.parse emitted.document.val.toJs).isSome

/-- With an operation, or with the mode of a join, both sides find the same. -/
theorem primitiveSupported_emitted {kind : String} {config emitted : List (String × Json)}
    (hconfigured : Configured kind config)
    (hoperation : lastMember "operation" emitted = some ((lastMember "operation" config).getD (.str "")))
    (hmode : lastMember "mode" emitted = lastMember "mode" config) :
    primitiveSupported kind emitted = primitiveSupported kind config := by
  rcases hconfigured with hgiven | ⟨rfl, mode, hgiven, hne⟩
  · obtain ⟨operation, hconfig⟩ := Option.ne_none_iff_exists'.mp hgiven
    rw [hconfig, Option.getD_some] at hoperation
    simp only [primitiveSupported, hoperation, hconfig, hmode]
  · rw [primitiveSupported, primitiveSupported, hmode, hgiven]
    simp [stringOr, Option.filter, hne]

/-- Without them the editor takes its default, and the contract refuses the empty text. -/
theorem primitiveSupported_default {kind : String} {config emitted : List (String × Json)}
    (hkind : kind ∈ ["transform", "aggregator", "join"]) (hconfigured : ¬ Configured kind config)
    (hoperation : lastMember "operation" emitted = some ((lastMember "operation" config).getD (.str "")))
    (hmode : lastMember "mode" emitted = lastMember "mode" config) :
    primitiveSupported kind config = true ∧ primitiveSupported kind emitted = false := by
  rw [Configured, not_or, not_not, not_and] at hconfigured
  obtain ⟨hnone, hmodes⟩ := hconfigured
  rw [hnone, Option.getD_none] at hoperation
  simp only [List.mem_cons, List.not_mem_nil, or_false] at hkind
  have hempty : String.ofList (Json.str "").toJsString = "" := by simp [Json.toJsString]
  rcases hkind with rfl | rfl | rfl
  · rw [primitiveSupported, primitiveSupported, hnone, hoperation]
    simp [stringOr, Option.filter, hempty, supportedTransformOperations]
  · rw [primitiveSupported, primitiveSupported, hnone, hoperation]
    simp [stringOr, Option.filter, hempty, supportedAggregatorOperations]
  · have hnull : (lastMember "mode" config).filter (· ≠ .null) = none := by
      rw [Option.filter_eq_none_iff]
      intro mode hmode' hne
      exact hmodes rfl ⟨mode, hmode', by simpa using hne⟩
    rw [primitiveSupported, primitiveSupported, hmode, hnone, hoperation]
    simp only [stringOr, hnull]
    simp [Option.filter, hempty, supportedJoinModes]

namespace Sample

/-- The normalized config of a transform. -/
def transformConfig (operation : String) : Document :=
  .object [("execution", .string ""), ("operation", .string operation), ("join", .string ""),
    ("expression", .string "")] (by simp)

/-- A transform that is normalized. -/
def transform (operation : String) : WorkflowNode :=
  ⟨"node", .string "transform", "", .string "", .string "", .null, .null, transformConfig operation⟩

/-- A workflow with a transform, the config of which is given. -/
def transforming (operation : String) (config : Document) : HarnessCompiler.Sources where
  package := HarnessCompiler.Sample.skilled.package
  analysis := ⟨true, some {
    name := "workflow"
    maxConcurrency := .nat 1
    inputs := .object [] List.nodup_nil
    outputs := .object [] List.nodup_nil
    nodes := [transform operation]
    edges := [] }, ["node"]⟩
  sourceConfigs := [("node", config)]
  profiles := []
  dependencies := []

/-- A config that gives an operation. -/
def sorting : Document := .object [("operation", .string "sort")] (by simp)

/-- A config that gives nothing. -/
def silent : Document := .object [] List.nodup_nil

end Sample

section

variable {sha256 : List Char → String} {spell : JsonNumber → List Char}
  {sources : HarnessCompiler.Sources} {plan : CompiledPlan} {workflow : Workflow} {node : WorkflowNode}
  {emitted : HarnessCompiler.PlanNode} {kind : String}

/-- The nodes of a plan are compiled one by one. -/
theorem compile_node (h : compile sha256 spell sources = .ok plan)
    (hworkflow : sources.analysis.normalized = some workflow) {i : ℕ} (hnode : workflow.nodes[i]? = some node)
    (hemitted : plan.nodes[i]? = some emitted) :
    ∃ envelope, compileNode sha256 spell sources node = .ok (emitted, envelope) := by
  obtain ⟨workflow', results, hworkflow', hresults, hnodes, -, -⟩ := compile_ok h
  obtain rfl : workflow = workflow' := Option.some_inj.mp (hworkflow.symm.trans hworkflow')
  rw [hnodes, List.getElem?_map] at hemitted
  obtain ⟨⟨emitted', envelope⟩, hresult, rfl⟩ := Option.map_eq_some_iff.mp hemitted
  obtain ⟨hi, rfl⟩ := List.getElem?_eq_some_iff.mp hnode
  obtain ⟨hi', hget⟩ := List.getElem?_eq_some_iff.mp hresult
  exact ⟨envelope, hget ▸ hresults.get hi hi'⟩

/-- **Diagnostics agree with the contract exactly where the author said what the node does**, and what
else the node is is what the contract takes if nothing is reported. -/
theorem diagnostics_agree_iff (h : compile sha256 spell sources = .ok plan)
    (hworkflow : sources.analysis.normalized = some workflow) {i : ℕ} (hnode : workflow.nodes[i]? = some node)
    (hemitted : plan.nodes[i]? = some emitted) (hkind : node.kind = .string kind)
    (hprimitive : kind ∈ ["transform", "aggregator", "join"])
    (hnormalizes : Normalizes (authored sources node.id) node.config) (index : ℕ) :
    DiagnosticsAgree kind index (configMembers (authored sources node.id)) emitted ↔
      Configured kind (configMembers (authored sources node.id)) ∧
        (validatePrimitiveConfig kind index (configMembers (authored sources node.id)) = [] →
          WellTyped node) := by
  obtain ⟨envelope, hcompile⟩ := compile_node h hworkflow hnode hemitted
  obtain ⟨config, rfl, hobject, hconfig⟩ := compileNode_config hcompile hnormalizes.object
  obtain ⟨hoperation, hmode⟩ := emitted_config hnormalizes hconfig
  rw [DiagnosticsAgree, isSome_parse_node (planNode node config) kind hkind hobject,
    otherwiseAccepted_iff hkind hprimitive hobject, validatePrimitiveConfig_eq_nil hprimitive]
  by_cases hconfigured : Configured kind (configMembers (authored sources node.id))
  · have hsame := primitiveSupported_emitted hconfigured hoperation hmode
    rw [show (planNode node config).config = config from rfl, hsame]
    tauto
  · obtain ⟨haccepted, hrefused⟩ := primitiveSupported_default hprimitive hconfigured hoperation hmode
    rw [show (planNode node config).config = config from rfl, hrefused, haccepted]
    simp [hconfigured]

open Sample in
/-- An operation that is given is accepted on both sides. -/
theorem diagnostics_agree_sample : ∃ plan emitted,
    compile HarnessCompiler.Sample.hexDigest JsonNumber.toChars (transforming "sort" sorting) = .ok plan ∧
      plan.nodes[0]? = some emitted ∧
      DiagnosticsAgree "transform" 0 (configMembers (authored (transforming "sort" sorting) "node")) emitted ∧
      validatePrimitiveConfig "transform" 0
        (configMembers (authored (transforming "sort" sorting) "node")) = [] := by
  have hoperation : lastMember "operation" (configMembers (authored (transforming "sort" sorting) "node"))
      = some (.str "sort") := rfl
  refine ⟨_, _, rfl, rfl, ?_, ?_⟩
  · refine (@diagnostics_agree_iff HarnessCompiler.Sample.hexDigest JsonNumber.toChars
      (transforming "sort" sorting) _ _ (transform "sort") _ "transform" rfl rfl 0 rfl rfl rfl (by decide)
      ⟨⟨_, rfl⟩, rfl, rfl⟩ 0).mpr ⟨.inl ?_, fun _ => ?_⟩
    · rw [show (transform "sort").id = "node" from rfl, hoperation]
      exact Option.some_ne_none _
    · exact ⟨by decide, ⟨_, rfl⟩, ⟨_, rfl⟩, .inl rfl, .inl rfl⟩
  · rw [validatePrimitiveConfig_eq_nil (by decide), primitiveSupported, hoperation]
    simp [stringOr, Option.filter, Json.toJsString, supportedTransformOperations]

open Sample in
/-- Without an operation the editor reports nothing, and the contract refuses what is emitted. -/
theorem silent_transform_refused : ∃ plan emitted,
    compile HarnessCompiler.Sample.hexDigest JsonNumber.toChars (transforming "" silent) = .ok plan ∧
      plan.nodes[0]? = some emitted ∧
      Normalizes (authored (transforming "" silent) "node") (transformConfig "") ∧
      ¬ DiagnosticsAgree "transform" 0 (configMembers (authored (transforming "" silent) "node"))
        emitted := by
  refine ⟨_, _, rfl, rfl, ⟨⟨_, rfl⟩, rfl, rfl⟩, ?_⟩
  rw [DiagnosticsAgree, validatePrimitiveConfig_eq_nil (by decide)]
  intro hagree
  have hrefused := hagree.mp (by
    rw [primitiveSupported, show lastMember "operation" _ = none from rfl]
    simp [stringOr, supportedTransformOperations])
  rw [isSome_parse_node _ "transform" rfl ⟨_, rfl⟩, primitiveSupported,
    show lastMember "operation" (configMembers _) = some (.str "") from rfl] at hrefused
  simp [stringOr, Option.filter, Json.toJsString, supportedTransformOperations] at hrefused

end

end

end ControlApi

end HarnessFramework
