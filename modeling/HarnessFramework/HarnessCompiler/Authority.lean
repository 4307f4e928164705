import HarnessFramework.HarnessCompiler.Compile

/-!
# Capabilities and envelopes

The compiler looks the capability of a node up by its id and finds the last one; the runtime and the
gateway look it up in the plan and find the first one. A binding of a node that does not exist puts
its capability into the plan without an envelope, and a node may name a capability in its config
without a binding.

## Main definitions

* `CompiledPlan.capabilityOf` — the capability that the runtime and the gateway resolve for a node
* `Envelope.Grants`, `AgreesOnAuthority` — what the envelopes are for
* `Unambiguous` — the sources whose plans agree on authority

## Main results

* `permission_eq` — the envelope of a node
* `authority_agrees_iff` — plans agree on authority exactly when their sources are unambiguous
-/

namespace HarnessFramework

namespace HarnessCompiler

open Checks

/-! ## Resolving -/

/-- `String(binding?.config.capabilityId ?? "")`. -/
def capabilityIdOf (node : Option PlanNode) : String :=
  match node.bind fun node => node.config.val.get? "capabilityId" with
  | none | some .null => ""
  | some value => String.ofList value.toJs.toJsString

/-- The node names a capability. -/
def PlanNode.Bound (node : PlanNode) : Prop :=
  match node.config.val.get? "capabilityId" with
  | none | some .null => False
  | _ => True

instance : DecidablePred PlanNode.Bound := fun node => by
  unfold PlanNode.Bound
  split <;> infer_instance

namespace CompiledPlan

variable (plan : CompiledPlan)

/-- The capability that the runtime and the gateway resolve for a node. -/
def capabilityOf (nodeId : String) : Option Capability :=
  let capabilityId := capabilityIdOf (plan.nodes.find? fun node => node.id = nodeId)
  plan.capabilities.find? fun capability => capability.id = capabilityId

/-- The envelope that they find for a node. -/
def permission (nodeId : String) : Option Envelope :=
  plan.permissionEnvelopes.find? fun envelope => envelope.nodeId = nodeId

end CompiledPlan

/-- The envelope grants the capability, with its own effect. -/
def Envelope.Grants (envelope : Envelope) (capability : Capability) : Prop :=
  capability.id ∈ envelope.capabilities ∧ capability.effect ∈ envelope.effects

instance (envelope : Envelope) : DecidablePred envelope.Grants := fun _ =>
  inferInstanceAs (Decidable (_ ∧ _))

/-- The capability of each node that names one is granted by the node's envelope, and each capability
of the plan by some envelope. -/
def AgreesOnAuthority (plan : CompiledPlan) : Prop :=
  (∀ node ∈ plan.nodes, node.Bound → ∃ capability ∈ plan.capabilityOf node.id,
    ∃ envelope ∈ plan.permission node.id, envelope.Grants capability) ∧
  ∀ capability ∈ plan.capabilities, ∃ envelope ∈ plan.permissionEnvelopes, envelope.Grants capability

/-! ## Sources -/

/-- The nodes of the workflow. -/
def Sources.nodes (sources : Sources) : List WorkflowNode :=
  (sources.analysis.normalized.map (·.nodes)).getD []

/-- Every binding with a capability is one of a node that exists; capabilities that share an id that
nodes are bound to have one effect; and a node that is not bound names no capability. -/
structure Unambiguous (sources : Sources) : Prop where
  bound : ∀ capability ∈ sources.package.capabilities,
    capability.id ∈ sources.package.bindings.values →
    ∃ node ∈ sources.nodes, sources.package.bindings.get node.id = some capability.id
  effect : ∀ capability ∈ sources.package.capabilities, ∀ other ∈ sources.package.capabilities,
    capability.id = other.id → capability.id ∈ sources.package.bindings.values →
    capability.effect = other.effect
  unbound : ∀ node ∈ sources.nodes, sources.package.bindings.get node.id = none →
    ¬ (planNode node (sources.config node)).Bound

section

variable {sha256 : List Char → String} {spell : JsonNumber → List Char} {sources : Sources}
  {node : WorkflowNode}

/-- The envelope of a node, from the sources. -/
def Sources.envelope? (sha256 : List Char → String) (spell : JsonNumber → List Char)
    (sources : Sources) (nodeId : String) : Option Envelope :=
  ((sources.package.bindings.get nodeId).bind sources.package.capabilityById).map
    (envelopeOf sha256 spell nodeId)

theorem get?_insertString {key text : String} {document config : Document}
    (h : insertString key text document = some config) :
    config.val.get? key = some (.string text) := by
  unfold insertString at h
  split at h
  · obtain rfl := Option.some_inj.mp h
    simp [Value.get?, addMembers]
  · cases h

/-- What becomes of a node. -/
theorem compileNode_ok {result : PlanNode × Option Envelope}
    (h : compileNode sha256 spell sources node = .ok result) :
    result.1.id = node.id ∧ result.2 = sources.envelope? sha256 spell node.id ∧
      ((sources.package.bindings.get node.id = none ∧
        result.1 = planNode node (sources.config node)) ∨
      ∃ capability, sources.package.bindings.get node.id = some capability.id ∧
        sources.package.capabilityById capability.id = some capability ∧
        result.1.config.val.get? "capabilityId" = some (.string capability.id)) := by
  unfold compileNode at h
  split at h
  case h_1 hnone =>
    obtain rfl := Except.ok.inj h
    exact ⟨rfl, by simp [Sources.envelope?, hnone], .inl ⟨hnone, rfl⟩⟩
  case h_2 capabilityId hsome =>
    simp only [orThrow_bind_eq_ok, pure_eq_ok] at h
    obtain ⟨config, hconfig, capability, hcapability, rfl⟩ := h
    have hid : capability.id = capabilityId := by simpa using List.find?_some hcapability
    subst hid
    exact ⟨rfl, by simp [Sources.envelope?, hsome, hcapability],
      .inr ⟨capability, hsome, hcapability, get?_insertString hconfig⟩⟩

theorem envelope?_nodeId {nodeId : String} {envelope : Envelope}
    (h : sources.envelope? sha256 spell nodeId = some envelope) : envelope.nodeId = nodeId := by
  obtain ⟨capability, -, rfl⟩ := Option.map_eq_some_iff.mp h
  rfl

end

/-! ## Plans -/

/-- The plan is what becomes of the sources. -/
structure Compiles (sha256 : List Char → String) (spell : JsonNumber → List Char) (sources : Sources)
    (plan : CompiledPlan) : Prop where
  node : ∀ node ∈ sources.nodes, ∃ planNode ∈ plan.nodes, planNode.id = node.id ∧
    ∃ envelope, compileNode sha256 spell sources node = .ok (planNode, envelope)
  planNode : ∀ planNode ∈ plan.nodes, ∃ node ∈ sources.nodes, planNode.id = node.id ∧
    ∃ envelope, compileNode sha256 spell sources node = .ok (planNode, envelope)
  envelope : ∀ envelope, envelope ∈ plan.permissionEnvelopes ↔
    ∃ node ∈ sources.nodes, sources.envelope? sha256 spell node.id = some envelope
  capability : ∀ capability, capability ∈ plan.capabilities ↔
    capability ∈ sources.package.capabilities ∧ capability.id ∈ sources.package.bindings.values

section

variable {sha256 : List Char → String} {spell : JsonNumber → List Char} {sources : Sources}
  {plan : CompiledPlan}

theorem forall₂_mem {α β : Type} {R : α → β → Prop} {as : List α} {bs : List β}
    (h : List.Forall₂ R as bs) :
    (∀ a ∈ as, ∃ b ∈ bs, R a b) ∧ ∀ b ∈ bs, ∃ a ∈ as, R a b := by
  induction h with
  | nil => simp
  | @cons a b as bs hab _ ih =>
    constructor
    · intro a' ha'
      rcases List.mem_cons.mp ha' with rfl | ha'
      · exact ⟨b, .head _, hab⟩
      · obtain ⟨b', hb', hr⟩ := ih.1 a' ha'
        exact ⟨b', .tail _ hb', hr⟩
    · intro b' hb'
      rcases List.mem_cons.mp hb' with rfl | hb'
      · exact ⟨a, .head _, hab⟩
      · obtain ⟨a', ha', hr⟩ := ih.2 b' hb'
        exact ⟨a', .tail _ ha', hr⟩

theorem compiles_of_ok (h : compile sha256 spell sources = .ok plan) :
    Compiles sha256 spell sources plan := by
  obtain ⟨workflow, results, hnormalized, hresults, hnodes, henvelopes, hcapabilities⟩ := compile_ok h
  rw [show workflow.nodes = sources.nodes by simp [Sources.nodes, hnormalized]] at hresults
  obtain ⟨hforward, hbackward⟩ := forall₂_mem hresults
  refine ⟨?_, ?_, ?_, ?_⟩
  · intro node hnode
    obtain ⟨result, hresult, hok⟩ := hforward node hnode
    exact ⟨result.1, hnodes ▸ List.mem_map_of_mem hresult, (compileNode_ok hok).1, result.2, hok⟩
  · intro planNode hmem
    rw [hnodes] at hmem
    obtain ⟨result, hresult, rfl⟩ := List.mem_map.mp hmem
    obtain ⟨node, hnode, hok⟩ := hbackward result hresult
    exact ⟨node, hnode, (compileNode_ok hok).1, result.2, hok⟩
  · intro envelope
    rw [henvelopes, List.mem_filterMap]
    constructor
    · rintro ⟨result, hresult, hsome⟩
      obtain ⟨node, hnode, hok⟩ := hbackward result hresult
      exact ⟨node, hnode, (compileNode_ok hok).2.1 ▸ hsome⟩
    · rintro ⟨node, hnode, hsome⟩
      obtain ⟨result, hresult, hok⟩ := hforward node hnode
      exact ⟨result, hresult, (compileNode_ok hok).2.1.trans hsome⟩
  · intro capability
    rw [hcapabilities, List.mem_filter, decide_eq_true_eq]

namespace Compiles

variable (h : Compiles sha256 spell sources plan)
include h

/-- **The envelope of a node.** -/
theorem permission_eq {node : WorkflowNode} (hnode : node ∈ sources.nodes) :
    plan.permission node.id = sources.envelope? sha256 spell node.id := by
  cases henvelope : sources.envelope? sha256 spell node.id with
  | none =>
    refine List.find?_eq_none.mpr fun envelope hmem => ?_
    obtain ⟨other, -, hother⟩ := (h.envelope envelope).mp hmem
    rw [decide_eq_true_eq]
    intro hid
    rw [← envelope?_nodeId hother, hid, henvelope] at hother
    cases hother
  | some envelope =>
    have hmem := (h.envelope envelope).mpr ⟨node, hnode, henvelope⟩
    cases hfind : plan.permission node.id with
    | none =>
      have := List.find?_eq_none.mp hfind envelope hmem
      simp [envelope?_nodeId henvelope] at this
    | some other =>
      obtain ⟨node', -, hother⟩ := (h.envelope other).mp (List.mem_of_find?_eq_some hfind)
      have hid : other.nodeId = node.id := by simpa using List.find?_some hfind
      rw [← envelope?_nodeId hother, hid, henvelope] at hother
      exact hother.symm

omit h in
/-- What an envelope grants: the last capability of the id that its node is bound to. -/
theorem grants {node : WorkflowNode} {envelope : Envelope} {capability : Capability}
    (henvelope : sources.envelope? sha256 spell node.id = some envelope)
    (hgrants : envelope.Grants capability) :
    sources.package.bindings.get node.id = some capability.id ∧
      ∃ last, sources.package.capabilityById capability.id = some last ∧
        capability.effect = last.effect := by
  obtain ⟨last, hlast, rfl⟩ := Option.map_eq_some_iff.mp henvelope
  obtain ⟨capabilityId, hbinding, hfind⟩ := Option.bind_eq_some_iff.mp hlast
  have hid : last.id = capabilityId := by simpa using List.find?_some hfind
  obtain ⟨hcapability, heffect⟩ := hgrants
  have hcapability : capability.id = capabilityId := by simpa [envelopeOf, hid] using hcapability
  rw [hcapability]
  exact ⟨hbinding, last, hfind, by simpa [envelopeOf] using heffect⟩

omit h in
/-- The capability that an id resolves to is one of the package. -/
theorem mem_of_capabilityById {id : String} {capability : Capability}
    (hfind : sources.package.capabilityById id = some capability) :
    capability ∈ sources.package.capabilities ∧ capability.id = id :=
  ⟨List.mem_reverse.mp (List.mem_of_find?_eq_some hfind), by simpa using List.find?_some hfind⟩

omit h in
theorem mem_values_of_get {nodeId id : String}
    (hget : sources.package.bindings.get nodeId = some id) :
    id ∈ sources.package.bindings.values := by
  obtain ⟨l₁, l₂, heq, -⟩ := List.lookup_eq_some_iff.mp hget
  rw [Bindings.values, heq]
  simp

theorem unambiguous (hagrees : AgreesOnAuthority plan) : Unambiguous sources := by
  have hgranted : ∀ capability ∈ sources.package.capabilities,
      capability.id ∈ sources.package.bindings.values → ∃ node ∈ sources.nodes,
        sources.package.bindings.get node.id = some capability.id ∧
        ∃ last, sources.package.capabilityById capability.id = some last ∧
          capability.effect = last.effect := by
    intro capability hmem hvalues
    obtain ⟨envelope, henvelope, hgrants⟩ :=
      hagrees.2 capability ((h.capability capability).mpr ⟨hmem, hvalues⟩)
    obtain ⟨node, hnode, hsome⟩ := (h.envelope envelope).mp henvelope
    exact ⟨node, hnode, grants hsome hgrants⟩
  refine ⟨?_, ?_, ?_⟩
  · intro capability hmem hvalues
    obtain ⟨node, hnode, hget, -⟩ := hgranted capability hmem hvalues
    exact ⟨node, hnode, hget⟩
  · intro capability hmem other hother hid hvalues
    obtain ⟨-, -, -, last, hlast, heffect⟩ := hgranted capability hmem hvalues
    obtain ⟨-, -, -, last', hlast', heffect'⟩ := hgranted other hother (hid ▸ hvalues)
    rw [← hid, hlast, Option.some_inj] at hlast'
    rw [heffect, heffect', hlast']
  · intro node hnode hget hbound
    obtain ⟨planNode, hmem, hid, envelope, hok⟩ := h.node node hnode
    rcases (compileNode_ok hok).2.2 with ⟨-, heq⟩ | ⟨capability, hsome, -⟩
    · obtain ⟨capability, -, envelope, henvelope, hgrants⟩ := hagrees.1 planNode hmem (by
        rw [show planNode = _ from heq]; exact hbound)
      rw [hid, h.permission_eq hnode] at henvelope
      rw [(grants henvelope hgrants).1] at hget
      cases hget
    · rw [hsome] at hget
      cases hget

/-- The capability that is resolved for a bound node. -/
theorem capabilityOf_bound {node : WorkflowNode} (hnode : node ∈ sources.nodes)
    {capability : Capability} (hget : sources.package.bindings.get node.id = some capability.id)
    (hlast : sources.package.capabilityById capability.id = some capability) :
    ∃ first ∈ plan.capabilityOf node.id, first ∈ sources.package.capabilities ∧
      first.id = capability.id := by
  have hmem := (h.capability capability).mpr
    ⟨(mem_of_capabilityById hlast).1, mem_values_of_get hget⟩
  -- The first node with the id is bound to the same capability.
  have hname : capabilityIdOf (plan.nodes.find? fun other => other.id = node.id) = capability.id := by
    cases hfind : plan.nodes.find? fun other => other.id = node.id with
    | none =>
      obtain ⟨planNode, hplan, hid, -⟩ := h.node node hnode
      have := List.find?_eq_none.mp hfind planNode hplan
      simp [hid] at this
    | some planNode =>
      have hid : planNode.id = node.id := by simpa using List.find?_some hfind
      obtain ⟨other, -, hother, envelope, hok⟩ := h.planNode planNode (List.mem_of_find?_eq_some hfind)
      rw [← hother.symm.trans hid] at hget
      rcases (compileNode_ok hok).2.2 with ⟨hnone, -⟩ | ⟨bound, hsome, -, hconfig⟩
      · rw [hget] at hnone
        cases hnone
      · rw [hsome, Option.some_inj] at hget
        simp [capabilityIdOf, hconfig, Value.toJs, Json.toJsString, hget]
  cases hfirst : plan.capabilityOf node.id with
  | none =>
    rw [CompiledPlan.capabilityOf, hname] at hfirst
    have := List.find?_eq_none.mp hfirst capability hmem
    simp at this
  | some first =>
    rw [CompiledPlan.capabilityOf, hname] at hfirst
    exact ⟨first, rfl, ((h.capability first).mp (List.mem_of_find?_eq_some hfirst)).1,
      by simpa using List.find?_some hfirst⟩

theorem agrees (hsources : Unambiguous sources) : AgreesOnAuthority plan := by
  constructor
  · intro planNode hmem hbound
    obtain ⟨node, hnode, hid, envelope, hok⟩ := h.planNode planNode hmem
    rw [hid]
    rcases (compileNode_ok hok).2.2 with ⟨hnone, heq⟩ | ⟨capability, hget, hlast, -⟩
    · exact absurd (heq ▸ hbound) (hsources.unbound node hnode hnone)
    · obtain ⟨first, hfirst, hmem, hfirstId⟩ := h.capabilityOf_bound hnode hget hlast
      refine ⟨first, hfirst, envelopeOf sha256 spell node.id capability, ?_, ?_, ?_⟩
      · rw [h.permission_eq hnode, Sources.envelope?, hget]
        simp [hlast]
      · simp [envelopeOf, hfirstId]
      · have heffect := hsources.effect first hmem capability (mem_of_capabilityById hlast).1 hfirstId
          (hfirstId ▸ mem_values_of_get hget)
        simp [envelopeOf, heffect]
  · intro capability hmem
    obtain ⟨hcapability, hvalues⟩ := (h.capability capability).mp hmem
    obtain ⟨node, hnode, hget⟩ := hsources.bound capability hcapability hvalues
    obtain ⟨planNode, -, -, envelope, hok⟩ := h.node node hnode
    rcases (compileNode_ok hok).2.2 with ⟨hnone, -⟩ | ⟨last, hget', hlast, -⟩
    · rw [hget] at hnone
      cases hnone
    · obtain hid : capability.id = last.id := Option.some_inj.mp (hget.symm.trans hget')
      refine ⟨envelopeOf sha256 spell node.id last, (h.envelope _).mpr ⟨node, hnode, ?_⟩, ?_, ?_⟩
      · rw [Sources.envelope?, hget']
        simp [hlast]
      · simp [envelopeOf, hid]
      · have heffect := hsources.effect capability hcapability last (mem_of_capabilityById hlast).1 hid
          hvalues
        simp [envelopeOf, heffect]

end Compiles

end

namespace Sample

theorem unambiguous_sources : Unambiguous (sources [capability "read" "read"] "read" "read" [] .nil) := by
  refine ⟨?_, ?_, ?_⟩
  · intro capability hmem _
    obtain rfl := List.mem_singleton.mp hmem
    exact ⟨_, .head _, rfl⟩
  · intro capability hmem other hother _ _
    rw [List.mem_singleton.mp hmem, List.mem_singleton.mp hother]
  · intro node hmem hnone
    obtain rfl := List.mem_singleton.mp hmem
    cases hnone

end Sample

/-! ## When plans agree on authority -/

/-- **Plans agree on authority exactly when their sources are unambiguous.** -/
theorem authority_agrees_iff {sha256 : List Char → String} {spell : JsonNumber → List Char}
    {sources : Sources} {plan : CompiledPlan} (h : compile sha256 spell sources = .ok plan) :
    AgreesOnAuthority plan ↔ Unambiguous sources :=
  ⟨(compiles_of_ok h).unambiguous, (compiles_of_ok h).agrees⟩

open Sample in
theorem authority_agrees_sample : ∃ plan : CompiledPlan, plan.permissionEnvelopes.length = 1 ∧
    AgreesOnAuthority plan :=
  ⟨_, by rfl, (@authority_agrees_iff String.ofList JsonNumber.toChars
    (sources [capability "read" "read"] "read" "read" [] .nil) _ rfl).mpr unambiguous_sources⟩

open Sample in
/-- A capability of a node that does not exist is in the plan, and in no envelope. -/
theorem authority_disagrees :
    ¬ ∀ (sha256 : List Char → String) (spell : JsonNumber → List Char) (sources : Sources)
      (plan : CompiledPlan), compile sha256 spell sources = .ok plan → AgreesOnAuthority plan := by
  intro h
  have hall := h String.ofList JsonNumber.toChars
    (sources [capability "read" "read", capability "pay" "paid"] "read" "pay" [] .nil) _ rfl
  obtain ⟨envelope, hmem, hgrants⟩ := hall.2 (capability "pay" "paid")
    (by simp [capability, Bindings.values, sources])
  obtain rfl := List.mem_singleton.mp hmem
  simpa [envelopeOf, capability] using hgrants.1

end HarnessCompiler

end HarnessFramework
