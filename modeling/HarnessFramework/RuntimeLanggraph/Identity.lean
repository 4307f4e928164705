import HarnessFramework.Contracts.SameValue
import HarnessFramework.RuntimeLanggraph.Execution

/-!
# The identity of a capability call

`invokeCapability` of `packages/runtime-core/src/index.ts` asks the gateway under an id that is made
of the run, the node and the digest of its input. The input of a node that calls a capability holds
the outputs of all nodes, so a second attempt that starts from a saved state asks under the same id
only where the nodes that are not upstream have left the same outputs.

## Main definitions

* `invocationId`
* `Alike` — values that are written as the same JSON
* `SameSeen` — what two states show to a node is alike beyond what is upstream of it

## Main results

* `alike_obj_iff` — objects are alike when their members are
* `invocationId_eq_iff` — equal ids of alike inputs
* `identity_survives_iff` — exactly when two attempts call a capability under one id
-/

namespace HarnessFramework

namespace RuntimeLanggraph

open RuntimeCore Checks

/-! ## Values that are written alike -/

/-- The values are written as the same JSON, up to the order of members. -/
def Alike (a b : JsValue) : Prop := a.toJson.map canonicalize = b.toJson.map canonicalize

theorem Alike.refl (a : JsValue) : Alike a a := rfl

theorem toMembers_append (left right : List (String × JsValue)) :
    JsValue.toMembers (left ++ right) = JsValue.toMembers left ++ JsValue.toMembers right := by
  induction left with
  | nil => rfl
  | cons member left ih =>
    rw [List.cons_append, JsValue.toMembers, JsValue.toMembers, ih]
    split <;> rfl

theorem lastMember_toMembers_cons (key : String) (member : String × JsValue)
    (members : List (String × JsValue)) :
    lastMember key (JsValue.toMembers (member :: members)) =
      (lastMember key (JsValue.toMembers members)).or
        (if member.1 = key then member.2.toJson else none) := by
  rw [JsValue.toMembers]
  cases hvalue : member.2.toJson with
  | none => simp
  | some json => rfl

theorem lastMember_toMembers_of_not_mem {key : String} {members : List (String × JsValue)}
    (h : key ∉ Members.keys members) : lastMember key (JsValue.toMembers members) = none := by
  induction members with
  | nil => rfl
  | cons member members ih =>
    rw [Members.keys, List.map_cons, List.mem_cons, not_or, ← Members.keys] at h
    rw [lastMember_toMembers_cons, ih h.2, if_neg (Ne.symm h.1), Option.none_or]

/-- What is written of a member of an object. -/
theorem lastMember_toMembers {members : List (String × JsValue)} (h : (Members.keys members).Nodup)
    (key : String) :
    lastMember key (JsValue.toMembers members) = (JsValue.get key (.obj members)).toJson := by
  induction members with
  | nil => rfl
  | cons member members ih =>
    rw [Members.keys, List.map_cons, List.nodup_cons] at h
    rw [lastMember_toMembers_cons, JsValue.get_obj, Members.lookup_cons]
    split
    · next hkey => rw [lastMember_toMembers_of_not_mem (hkey ▸ h.1), Option.none_or, Option.getD_some]
    · rw [Option.or_none, ih h.2, JsValue.get_obj]

theorem lastMember_toMembers_replace {key : String} (value : JsValue) {members : List (String × JsValue)}
    (h : key ∈ Members.keys members) :
    lastMember key (JsValue.toMembers (Members.replace key value members)) = value.toJson := by
  induction members with
  | nil => cases h
  | cons member members ih =>
    rw [Members.keys, List.map_cons, List.mem_cons, ← Members.keys] at h
    rw [Members.replace, List.map_cons, ← Members.replace, lastMember_toMembers_cons]
    by_cases hmem : key ∈ Members.keys members
    · rw [ih hmem]
      split
      · rw [if_pos rfl, Option.or_self]
      · rw [Option.or_none]
    · have hrest : key ∉ Members.keys (Members.replace key value members) := by
        rwa [Members.keys_replace]
      have hkey : member.1 = key := (h.resolve_right hmem).symm
      rw [lastMember_toMembers_of_not_mem hrest, Option.none_or, if_pos hkey, if_pos rfl]

theorem lastMember_toMembers_replace_of_ne {key key' : String} (value : JsValue) (hne : key ≠ key')
    (members : List (String × JsValue)) :
    lastMember key' (JsValue.toMembers (Members.replace key value members))
      = lastMember key' (JsValue.toMembers members) := by
  induction members with
  | nil => rfl
  | cons member members ih =>
    rw [Members.replace, List.map_cons, ← Members.replace, lastMember_toMembers_cons,
      lastMember_toMembers_cons, ih]
    by_cases hkey : member.1 = key
    · rw [if_pos hkey, if_neg hne, if_neg (hkey ▸ hne)]
    · rw [if_neg hkey]

/-- What is written once a property has been set. -/
theorem lastMember_toMembers_set (key : String) (value : JsValue) (members : List (String × JsValue))
    (key' : String) :
    lastMember key' (JsValue.toMembers (Members.set key value members)) =
      if key = key' then value.toJson else lastMember key' (JsValue.toMembers members) := by
  rw [Members.set]
  split
  case isTrue hmem =>
    split
    · next hkey => rw [← hkey]; exact lastMember_toMembers_replace value hmem
    · next hkey => exact lastMember_toMembers_replace_of_ne value hkey members
  case isFalse hnew =>
    have hsplit := List.takeWhile_append_dropWhile (p := fun member => !Members.before key member.1)
      (l := members)
    rw [Members.insertNew, toMembers_append, lastMember_append, lastMember_toMembers_cons]
    by_cases hkey : key = key'
    · have hafter : key' ∉ Members.keys (members.dropWhile fun member => !Members.before key member.1) :=
        fun hmem => hnew (hkey ▸ List.map_subset _ (List.dropWhile_subset _) hmem)
      have hbefore : key' ∉ Members.keys (members.takeWhile fun member => !Members.before key member.1) :=
        fun hmem => hnew (hkey ▸ List.map_subset _ (List.takeWhile_subset _) hmem)
      rw [lastMember_toMembers_of_not_mem hafter, lastMember_toMembers_of_not_mem hbefore, if_pos hkey,
        if_pos hkey, Option.none_or, Option.or_none]
    · rw [if_neg hkey, if_neg hkey, Option.or_none, ← lastMember_append, ← toMembers_append, hsplit]

/-- **Objects are written alike when what is written of their members is.** -/
theorem alike_obj_iff {as bs : List (String × JsValue)} :
    Alike (.obj as) (.obj bs) ↔
      ∀ key, (lastMember key (JsValue.toMembers as)).map canonicalize
        = (lastMember key (JsValue.toMembers bs)).map canonicalize := by
  rw [Alike, JsValue.toJson, JsValue.toJson, Option.map_some, Option.map_some, Option.some_inj]
  constructor
  · exact canonicalize_lastMember_eq
  · intro h
    rw [canonicalize, canonicalize]
    refine congrArg Json.obj (sortedMembers_ext (sortedMembers_canonicalizeMembers _)
      (sortedMembers_canonicalizeMembers _) fun key => ?_)
    rw [lastMember_canonicalizeMembers, lastMember_canonicalizeMembers]
    exact h key

/-- Objects with one more property that is written. -/
theorem alike_set_iff {key : String} {a b : JsValue} {members : List (String × JsValue)} :
    Alike (.obj (Members.set key a members)) (.obj (Members.set key b members)) ↔ Alike a b := by
  rw [alike_obj_iff]
  simp only [lastMember_toMembers_set]
  constructor
  · intro h
    have hkey := h key
    rwa [if_pos rfl, if_pos rfl] at hkey
  · intro h key'
    split
    · exact h
    · rfl

/-! ## Ids -/

section

variable (sha256 : List Char → String) (renderTemplate : String → List (String × JsValue) → String)
  (plan : GraphPlan) (runId : String) (node : PlanNode) (state : HarnessState)

/-- `stableDigest(input).slice(0, 24)`. -/
def digestHead (json : Json) : List Char := (stableDigest sha256 json).toList.take 24

/-- The id that `invokeCapability` asks the gateway under. -/
def invocationId : Except String String := do
  let json ← digested (enriched renderTemplate node state (nodeInput plan node.id state))
  return runId ++ ":" ++ node.id ++ ":" ++ String.ofList (digestHead sha256 json)

/-- The digests tell the values apart. -/
def Separates (a b : Json) : Prop :=
  digestHead sha256 a = digestHead sha256 b → canonicalJson a = canonicalJson b

/-- A node that the node depends on, directly or through others. -/
def GraphPlan.Upstream (p n : String) : Prop :=
  Relation.TransGen (fun p n => plan.workflow.DependsOn n p) p n

/-- What two states show to a node is alike: the outputs of the nodes that are not upstream of it, where
it gets any, and its prompt. -/
structure SameSeen (state' : HarnessState) : Prop where
  values : plan.incoming node.id ≠ [] → ∀ p, ¬ plan.Upstream p node.id →
    Alike (state.value p) (state'.value p)
  prompt : ∀ prompt ∈ node.prompt.filter (· ≠ ""),
    renderTemplate prompt state.scope = renderTemplate prompt state'.scope

end

section

variable {sha256 : List Char → String} {renderTemplate : String → List (String × JsValue) → String}
  {plan : GraphPlan} {runId : String} {node : PlanNode} {state state' : HarnessState}

/-- **Ids are equal when inputs are alike**, and only then where digests tell them apart. -/
theorem invocationId_eq_iff
    (hsep : ∀ a ∈ (enriched renderTemplate node state (nodeInput plan node.id state)).toJson,
      ∀ b ∈ (enriched renderTemplate node state' (nodeInput plan node.id state')).toJson,
        Separates sha256 a b) :
    invocationId sha256 renderTemplate plan runId node state
        = invocationId sha256 renderTemplate plan runId node state' ↔
      Alike (enriched renderTemplate node state (nodeInput plan node.id state))
        (enriched renderTemplate node state' (nodeInput plan node.id state')) := by
  rw [invocationId, invocationId, digested, digested, Alike]
  generalize (enriched renderTemplate node state (nodeInput plan node.id state)).toJson = x at hsep
  generalize (enriched renderTemplate node state' (nodeInput plan node.id state')).toJson = y at hsep
  cases x with
  | none => cases y with
    | none => exact iff_of_true rfl rfl
    | some b => exact iff_of_false nofun nofun
  | some a => cases y with
    | none => exact iff_of_false nofun nofun
    | some b =>
      rw [Option.map_some, Option.map_some, Option.some_inj]
      show Except.ok _ = Except.ok _ ↔ _
      rw [Except.ok.injEq]
      constructor
      · intro h
        have htail : digestHead sha256 a = digestHead sha256 b := by
          have hlist := congrArg String.toList h
          simpa [String.toList_append] using hlist
        have hjson := hsep a rfl b rfl htail
        exact Json.stringify_injective hjson
      · intro h
        rw [digestHead, digestHead, stableDigest, stableDigest, canonicalJson, canonicalJson, h]

theorem lastMember_prompted (input : JsValue) (prompt key : String) :
    lastMember key (JsValue.toMembers [("input", input), ("prompt", .str prompt)]) =
      if "prompt" = key then some (.str prompt) else if "input" = key then input.toJson else none := by
  rw [lastMember_toMembers_cons, lastMember_toMembers_cons]
  show ((none : Option Json).or _).or _ = _
  rw [Option.none_or]
  by_cases hkey : "prompt" = key
  · simp [hkey, JsValue.toJson]
  · rw [if_neg hkey, if_neg hkey, Option.none_or]

/-- Inputs with prompts are alike when the inputs are and the prompts are equal. -/
theorem alike_enriched_iff {input input' : JsValue} :
    Alike (enriched renderTemplate node state input) (enriched renderTemplate node state' input') ↔
      Alike input input' ∧ ∀ prompt ∈ node.prompt.filter (· ≠ ""),
        renderTemplate prompt state.scope = renderTemplate prompt state'.scope := by
  rw [enriched, enriched]
  cases node.prompt.filter (· ≠ "") with
  | none => simp
  | some prompt =>
    show Alike (.obj _) (.obj _) ↔ _
    rw [alike_obj_iff]
    simp only [lastMember_prompted, Option.mem_some_iff, forall_eq']
    constructor
    · intro h
      have hinput := h "input"
      have hprompt := h "prompt"
      rw [if_neg (by decide), if_pos rfl, if_neg (by decide), if_pos rfl] at hinput
      rw [if_pos rfl, if_pos rfl, Option.map_some, Option.map_some, canonicalize, canonicalize] at hprompt
      exact ⟨hinput, Json.str.inj (Option.some_inj.mp hprompt)⟩
    · rintro ⟨hinput, hprompt⟩ key
      rw [hprompt]
      split
      · rfl
      · split
        · exact hinput
        · rfl

/-- What a node that calls a capability is handed is alike when all outputs are. -/
theorem alike_nodeInput_iff (hinvokes : plan.Invokes node.id) (hinput : state.input = state'.input)
    (hvalues : (Members.keys state.values).Nodup) (hvalues' : (Members.keys state'.values).Nodup) :
    Alike (nodeInput plan node.id state) (nodeInput plan node.id state') ↔
      (plan.incoming node.id ≠ [] → ∀ p, Alike (state.value p) (state'.value p)) := by
  have hjoin : ¬ plan.AllSettled node.id := by
    rintro ⟨join, hfind, hkind, -⟩
    obtain ⟨node', hfind', hkind'⟩ := hinvokes
    obtain rfl := Option.some_inj.mp (hfind.symm.trans hfind')
    rw [hkind] at hkind'
    exact absurd hkind' (by decide)
  by_cases hedges : plan.incoming node.id = []
  · rw [nodeInput, nodeInput, if_pos hedges, if_pos hedges, hinput]
    exact iff_of_true rfl fun hne => absurd hedges hne
  · rw [nodeInput, nodeInput, if_neg hedges, if_neg hedges, if_neg hjoin, if_neg hjoin, if_pos hinvokes,
      if_pos hinvokes, inputRoot, inputRoot, hinput, alike_set_iff, alike_obj_iff]
    simp only [lastMember_toMembers hvalues, lastMember_toMembers hvalues']
    exact (imp_iff_right hedges).symm

end

/-! ## Two attempts -/

namespace Sample

/-- An agent that is asked about the input of the run. -/
def asking : GraphPlan where
  adapterVersion := "harness-langgraph-v1"
  nodes := [⟨⟨"start", .input, []⟩, none⟩, ⟨⟨"ask", .agent, []⟩, none⟩]
  edges := [⟨⟨"start", "ask", .data⟩, none, none, none⟩]
  nodeOrder := ["start", "ask"]

/-- The node of the agent. -/
def ask : PlanNode := ⟨⟨"ask", .agent, []⟩, none⟩

/-- The graph of the plan. -/
def askGraph : StateGraph String := ⟨["start", "ask"], "start", [("start", "ask")], [], []⟩

/-- The state of a thread in which some nodes have returned. -/
def savedValues (values : List (String × JsValue)) : HarnessState := ⟨.undefined, values, [], .undefined⟩

/-- What is before the second superstep of an attempt. -/
def beforeAsk (values : List (String × JsValue)) : RunState where
  scheduled := askGraph.next (picked runtime asking 0 (resumed (savedValues values) (.str "A"))) askGraph.first
  state := ⟨.str "A", Members.set "start" (.str "A") values, [], .undefined⟩

theorem execution_asking (values : List (String × JsValue)) :
    execution runtime asking askGraph (resumed (savedValues values) (.str "A")) 1
      = .ok (beforeAsk values) := by
  rfl

end Sample

/-- **Two attempts call a capability under one id exactly when the nodes that are not upstream have left
the same outputs**, and the prompt is the same. -/
theorem identity_survives_iff {sha256 : List Char → String} {first second : Runtime}
    (hrender : second.renderTemplate = first.renderTemplate) {plan : GraphPlan} {g : StateGraph String}
    (input : JsValue) {saved saved' : HarnessState} (hsaved : (Members.keys saved.values).Nodup)
    (hsaved' : (Members.keys saved'.values).Nodup) {j k : ℕ} {r r' : RunState}
    (hr : execution first plan g (resumed saved input) j = .ok r)
    (hr' : execution second plan g (resumed saved' input) k = .ok r') {node : PlanNode}
    (hinvokes : plan.Invokes node.id)
    (hupstream : ∀ p, plan.Upstream p node.id → Alike (r.state.value p) (r'.state.value p))
    (hsep : ∀ a ∈ (enriched first.renderTemplate node r.state (nodeInput plan node.id r.state)).toJson,
      ∀ b ∈ (enriched second.renderTemplate node r'.state (nodeInput plan node.id r'.state)).toJson,
        Separates sha256 a b) (runId : String) :
    invocationId sha256 first.renderTemplate plan runId node r.state
        = invocationId sha256 second.renderTemplate plan runId node r'.state ↔
      SameSeen first.renderTemplate plan node r.state r'.state := by
  rw [hrender] at hsep ⊢
  have hinput : r.state.input = r'.state.input := (execution_input hr).trans (execution_input hr').symm
  have hresumed : (Members.keys (resumed saved input).values).Nodup := hsaved
  have hresumed' : (Members.keys (resumed saved' input).values).Nodup := hsaved'
  rw [invocationId_eq_iff hsep, alike_enriched_iff,
    alike_nodeInput_iff hinvokes hinput (execution_values hresumed hr) (execution_values hresumed' hr')]
  constructor
  · rintro ⟨hvalues, hprompt⟩
    exact ⟨fun hedges p _ => hvalues hedges p, hprompt⟩
  · rintro ⟨hvalues, hprompt⟩
    refine ⟨fun hedges p => ?_, hprompt⟩
    by_cases hp : plan.Upstream p node.id
    · exact hupstream p hp
    · exact hvalues hedges p hp

open Sample in
theorem identity_survives_sample :
    invocationId String.ofList Sample.runtime.renderTemplate asking "run" ask (beforeAsk []).state
        = invocationId String.ofList Sample.runtime.renderTemplate asking "run" ask
          (beforeAsk [("start", .str "A")]).state ↔
      SameSeen Sample.runtime.renderTemplate asking ask (beforeAsk []).state
        (beforeAsk [("start", .str "A")]).state :=
  identity_survives_iff rfl (.str "A") (show (Members.keys (savedValues []).values).Nodup from List.nodup_nil)
    (show (Members.keys (savedValues [("start", .str "A")]).values).Nodup from List.nodup_singleton _)
    (execution_asking []) (execution_asking _) ⟨ask, rfl, by decide⟩ (fun _ _ => rfl) (by
      rintro a ha b hb -
      obtain rfl := Option.some_inj.mp (ha.symm.trans hb)
      rfl) "run"

open Sample in
/-- In an attempt that starts from the state in which the first ended, an agent sees its own earlier
answer, and asks under another id. -/
theorem identity_changes :
    ¬ ∀ (sha256 : List Char → String) (runtime : Runtime) (plan : GraphPlan) (g : StateGraph String)
      (input : JsValue) (saved : HarnessState) (j m k : ℕ) (r r₁ r' : RunState) (node : PlanNode)
      (runId : String), lowerHarnessPlan plan.workflow = .ok g →
      execution runtime plan g (resumed saved input) j = .ok r → node ∈ plan.running r →
      execution runtime plan g (resumed saved input) m = .ok r₁ →
      execution runtime plan g (resumed r₁.state input) k = .ok r' → node ∈ plan.running r' →
      plan.Invokes node.id →
      (∀ p, plan.Upstream p node.id → Alike (r.state.value p) (r'.state.value p)) →
      invocationId sha256 runtime.renderTemplate plan runId node r.state
        = invocationId sha256 runtime.renderTemplate plan runId node r'.state := by
  intro h
  have hstart : ∀ p n, asking.Upstream p n → p = "start" := by
    intro p n hp
    obtain ⟨n', ⟨-, -, edge, hedge, rfl, -⟩, -⟩ := Relation.TransGen.head'_iff.mp hp
    obtain rfl := List.mem_singleton.mp hedge
    rfl
  have hids := h String.ofList Sample.runtime asking askGraph (.str "A") (savedValues []) 1 2 1 _ _ _ ask
    "run" rfl rfl (by decide) rfl rfl (by decide) ⟨ask, rfl, by decide⟩ (by
      intro p hp
      rw [hstart p _ hp]
      rfl)
  revert hids
  decide +kernel

end RuntimeLanggraph

end HarnessFramework
