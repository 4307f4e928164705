import HarnessFramework.ControlApi.AuthoringAgents
import HarnessFramework.Library.Insertion

/-!
# Inserting an agent behind a node

An agent that is inserted behind a node takes over the edges out of it. If the workflow has an array of
edges, its graph after the insertion is the graph before with a vertex inserted, and depends as before;
if it has none, the edge to the new node is lost.

## Main definitions

* `nodesOf`, `edgesOf`, `Edge` — the graph of a workflow
* `Dag` — distinct nodes, resolved edges and no cycle
* `KeepsDependencies` — the graph after an insertion depends as before

## Main results

* `attachNode_insertAfter` — what an insertion does to nodes and edges
* `edge_inserted` — the graph after it is the graph before with a vertex inserted
* `insertAfter_keeps_iff` — dependencies are kept exactly when the edges are an array
-/

namespace HarnessFramework

namespace ControlApi

open Checks Relation

/-! ## The graph of a workflow -/

/-- The members of `workflow.spec`. -/
def specOf (workflow : Json) : List (String × Json) :=
  membersOf (Members.lookup "spec" (membersOf (some workflow)))

/-- The nodes of a workflow. -/
def nodesOf (workflow : Json) : List Json := itemsOf (Members.lookup "nodes" (specOf workflow))

/-- The edges of a workflow. -/
def edgesOf (workflow : Json) : List Json := itemsOf (Members.lookup "edges" (specOf workflow))

/-- The edges of a workflow are an array. -/
def HasEdges (workflow : Json) : Prop := ∃ edges, Members.lookup "edges" (specOf workflow) = some (.arr edges)

/-- A member of a node or an edge, `none` where it is `undefined`. -/
def memberAt (key : String) (item : Json) : Option Json := Members.lookup key (membersOf (some item))

/-- The ids of the nodes. -/
def idsOf (workflow : Json) : List (Option Json) := (nodesOf workflow).map (memberAt "id")

/-- The edges out of a node. -/
def outgoing (workflow : Json) (id : Option Json) : List Json :=
  (edgesOf workflow).filter fun edge => memberAt "from" edge = id

/-- An edge leads from a node to another. -/
def Edge (workflow : Json) (x y : Option Json) : Prop :=
  ∃ edge ∈ edgesOf workflow, memberAt "from" edge = x ∧ memberAt "to" edge = y

/-- **Distinct nodes, resolved edges and no cycle.** -/
structure Dag (workflow : Json) : Prop where
  distinct : (idsOf workflow).Nodup
  resolved : ∀ edge ∈ edgesOf workflow,
    memberAt "from" edge ∈ idsOf workflow ∧ memberAt "to" edge ∈ idsOf workflow
  acyclic : Acyclic (Edge workflow)

/-- An edge with another source. -/
def withSource (id : String) (edge : Json) : Json :=
  .obj (Members.set "from" (.str id) (membersOf (some edge)))

/-- **A workflow after an insertion depends as before**: the selected node leads to the inserted one only,
which has its former edges, and the nodes that were there are reachable from each other as they were. -/
structure KeepsDependencies (workflow workflow' : Json) (selected inserted : String) : Prop where
  dag : Dag workflow'
  single : ∃ edge, outgoing workflow' (some (.str selected)) = [edge] ∧
    memberAt "to" edge = some (.str inserted)
  moved : outgoing workflow' (some (.str inserted))
    = (outgoing workflow (some (.str selected))).map (withSource inserted)
  reachable : ∀ x ∈ idsOf workflow, ∀ y ∈ idsOf workflow,
    TransGen (Edge workflow') x y ↔ TransGen (Edge workflow) x y

/-! ## What an insertion does -/

theorem property_ok {key : String} {value : Json} {result : Option Json}
    (h : property key value = .ok result) : result = memberAt key value := by
  match value with
  | .null => cases h
  | .obj members => exact (Except.ok.inj h).symm
  | .bool _ | .num _ | .str _ | .arr _ => exact (Except.ok.inj h).symm

theorem eq_obj_of_memberAt {key : String} {value : Json} {result : Json} (h : memberAt key value = some result) :
    value = .obj (membersOf (some value)) := by
  match value with
  | .obj members => rfl
  | .null | .bool _ | .num _ | .str _ | .arr _ => cases h

theorem findNode_ok {nodeId : String} {nodes : List Json} {split : NodeSplit}
    (h : findNode nodeId nodes = .ok (some split)) :
    nodes = split.before ++ .obj split.selected :: split.after ∧
      Members.lookup "id" split.selected = some (.str nodeId) := by
  induction nodes generalizing split with
  | nil => cases h
  | cons node nodes ih =>
    rw [findNode, bind_eq_ok] at h
    obtain ⟨id, hid, h⟩ := h
    rw [property_ok hid] at h
    split at h
    · next hselected =>
      rw [pure_eq_ok, Option.some.injEq] at h
      subst h
      exact ⟨by rw [List.nil_append, ← eq_obj_of_memberAt hselected], hselected⟩
    · obtain ⟨found, hfound, h⟩ := bind_eq_ok.mp h
      rw [pure_eq_ok, Option.map_eq_some_iff] at h
      obtain ⟨rest, rfl, rfl⟩ := h
      obtain ⟨hnodes, hlookup⟩ := ih hfound
      exact ⟨by rw [hnodes]; rfl, hlookup⟩

theorem hasNode_ok {nodeId : String} {nodes : List Json} (h : hasNode nodeId nodes = .ok false) :
    ∀ node ∈ nodes, memberAt "id" node ≠ some (.str nodeId) := by
  induction nodes with
  | nil => exact fun _ hnode => absurd hnode List.not_mem_nil
  | cons node nodes ih =>
    rw [hasNode, bind_eq_ok] at h
    obtain ⟨id, hid, h⟩ := h
    rw [property_ok hid] at h
    split at h
    · cases h
    · next hne => exact List.forall_mem_cons.mpr ⟨hne, ih h⟩

/-- An edge after an insertion. -/
def movedEdge (selected inserted : String) (edge : Json) : Json :=
  if memberAt "from" edge = some (.str selected) then withSource inserted edge else edge

theorem moveEdge_ok {selected inserted : String} {edge edge' : Json}
    (h : moveEdge selected inserted edge = .ok edge') : edge' = movedEdge selected inserted edge := by
  rw [moveEdge, bind_eq_ok] at h
  obtain ⟨source, hsource, h⟩ := h
  rw [pure_eq_ok, property_ok hsource] at h
  exact h.symm

/-- The edges of a specification after an insertion. -/
def insertedEdges (selected inserted : String) : Option Json → Option Json
  | some (.arr edges) => some (.arr (edges.map (movedEdge selected inserted) ++
      [attachedEdge selected inserted]))
  | other => other

theorem insertedEdges_of_not_array {selected inserted : String} {value : Option Json}
    (h : ∀ edges, value ≠ some (.arr edges)) : insertedEdges selected inserted value = value := by
  match value with
  | some (.arr edges) => exact absurd rfl (h edges)
  | none | some .null | some (.bool _) | some (.num _) | some (.str _) | some (.obj _) => rfl

/-- **What an insertion does to nodes and edges.** -/
theorem attachNode_insertAfter {input : AgentAttachment} (hmode : input.mode = .insertAfter)
    {spec spec' : List (String × Json)} {inserted : String} (h : attachNode input spec = .ok (spec', inserted)) :
    ∃ split : NodeSplit, ∃ nodes : List Json,
      Members.lookup "nodes" spec = some (.arr nodes) ∧
        nodes = split.before ++ .obj split.selected :: split.after ∧
        Members.lookup "id" split.selected = some (.str input.nodeId) ∧
        (∀ node ∈ nodes, memberAt "id" node ≠ some (.str inserted)) ∧
        Members.lookup "nodes" spec' = some (.arr (split.before ++ .obj split.selected ::
          agentNode input.agent inserted [] [] :: split.after)) ∧
        Members.lookup "edges" spec'
          = insertedEdges input.nodeId inserted (Members.lookup "edges" spec) := by
  simp only [attachNode, bind_eq_ok, orThrow_eq_ok, ensure_eq_ok, hmode] at h
  obtain ⟨found, hfound, split, rfl, _, -, _, -, h⟩ := h
  obtain ⟨taken, htaken, _, rfl, h⟩ := h
  obtain ⟨hnodes, hselected⟩ := findNode_ok hfound
  have harray : Members.lookup "nodes" spec = some (.arr (itemsOf (Members.lookup "nodes" spec))) := by
    rcases hlookup : Members.lookup "nodes" spec with _ | _ | _ | _ | _ | nodes | _
    case some.arr => rfl
    all_goals
      rw [hlookup] at hnodes
      simp [itemsOf] at hnodes
  have hfresh := hasNode_ok htaken
  refine ⟨split, _, harray, hnodes, hselected, ?_⟩
  have hedges : Members.lookup "edges" (Members.set "nodes" (.arr (split.before ++ .obj split.selected ::
      agentNode input.agent (attachedId input) [] [] :: split.after)) spec)
        = Members.lookup "edges" spec := by
    rw [Members.lookup_set, if_neg (by decide)]
  rw [hedges] at h
  split at h
  · next edges harr =>
    obtain ⟨moved, hmoved, h⟩ := bind_eq_ok.mp h
    rw [pure_eq_ok, Prod.mk.injEq] at h
    obtain ⟨rfl, rfl⟩ := h
    refine ⟨hfresh, ?_, ?_⟩
    · rw [Members.lookup_set, if_neg (by decide), Members.lookup_set, if_pos rfl]
    · rw [Members.lookup_set, if_pos rfl, harr, map_of_mapM moveEdge_ok hmoved]
      rfl
  · next hnot =>
    rw [pure_eq_ok, Prod.mk.injEq] at h
    obtain ⟨rfl, rfl⟩ := h
    refine ⟨hfresh, ?_, ?_⟩
    · rw [Members.lookup_set, if_pos rfl]
    · rw [hedges, insertedEdges_of_not_array hnot]

/-- **A workflow after an agent was inserted behind a node.** -/
structure InsertsAgent (agent : AgentRegistration) (workflow workflow' : Json) (selected inserted : String) :
    Prop where
  nodes : ∃ before node after, nodesOf workflow = before ++ node :: after ∧
    memberAt "id" node = some (.str selected) ∧
    nodesOf workflow' = before ++ node :: agentNode agent inserted [] [] :: after
  fresh : some (.str inserted) ∉ idsOf workflow
  edges : Members.lookup "edges" (specOf workflow')
    = insertedEdges selected inserted (Members.lookup "edges" (specOf workflow))

theorem applyAgent_insertAfter {yaml : Yaml} {sources result : AuthoringSources} {input : AgentAttachment}
    (hmode : input.mode = .insertAfter) {inserted : String} {workflow workflow' : Json}
    (hbefore : yaml.parse sources.workflowSource = .ok workflow)
    (happly : applyAgentToAuthoringSources yaml sources input = .ok (result, inserted))
    (hafter : yaml.parse result.workflowSource = .ok workflow') :
    InsertsAgent input.agent workflow workflow' input.nodeId inserted := by
  simp only [applyAgentToAuthoringSources, hbefore, bind_eq_ok, orThrow_eq_ok, pure_eq_ok] at happly
  obtain ⟨pkg, -, _, hok, members, -, workflowMembers, hworkflow, spec, hspec, ⟨spec', id⟩, hattach,
    happly⟩ := happly
  obtain rfl := Except.ok.inj hok
  obtain ⟨pkg', -, happly⟩ := happly
  obtain ⟨rfl, rfl⟩ := Prod.mk.inj happly
  rw [yaml.parse_stringify, Except.ok.injEq] at hafter
  have hmembers : membersOf (some workflow) = workflowMembers := by
    cases workflow <;> simp_all [object?, membersOf]
  have hold : specOf workflow = spec := by
    rw [specOf, hmembers]
    rcases hlookup : Members.lookup "spec" workflowMembers with _ | _ | _ | _ | _ | _ | members
    case some.obj => rw [hlookup] at hspec; exact Option.some_inj.mp hspec
    all_goals
      rw [hlookup] at hspec
      cases hspec
  have hnew : specOf workflow' = spec' := by
    rw [← hafter, specOf]
    show membersOf (Members.lookup "spec" (Members.set "spec" (.obj spec') workflowMembers)) = spec'
    rw [Members.lookup_set, if_pos rfl]
    rfl
  obtain ⟨split, nodes, hlookup, hnodes, hselected, hfresh, hnodes', hedges⟩ :=
    attachNode_insertAfter hmode hattach
  refine ⟨⟨split.before, .obj split.selected, split.after, ?_, hselected, ?_⟩, ?_, ?_⟩
  · rw [nodesOf, hold, hlookup, ← hnodes]
    rfl
  · rw [nodesOf, hnew, hnodes']
    rfl
  · rw [idsOf, nodesOf, hold, hlookup]
    intro hmem
    obtain ⟨node, hnode, hid⟩ := List.mem_map.mp hmem
    exact hfresh node hnode hid
  · rw [hold, hnew, hedges]

/-! ## The graph after an insertion -/

section

variable {agent : AgentRegistration} {workflow workflow' : Json} {selected inserted : String}

theorem memberAt_withSource (key : String) (id : String) (edge : Json) :
    memberAt key (withSource id edge) = if "from" = key then some (.str id) else memberAt key edge :=
  Members.lookup_set "from" (Json.str id) (membersOf (some edge)) key

theorem memberAt_attachedEdge (selected inserted : String) :
    memberAt "from" (attachedEdge selected inserted) = some (.str selected) ∧
      memberAt "to" (attachedEdge selected inserted) = some (.str inserted) := ⟨rfl, rfl⟩

theorem memberAt_agentNode (agent : AgentRegistration) (id : String) :
    memberAt "id" (agentNode agent id [] []) = some (.str id) := by
  rw [memberAt, agentNode, membersOf, Members.lookup_spread]
  simp only [List.reverse_cons, List.reverse_nil, List.nil_append, List.cons_append, Members.lookup_cons]
  simp

/-- Edges that are no array are read as none. -/
theorem edgesOf_eq_nil (h : ¬HasEdges workflow) : edgesOf workflow = [] := by
  rw [edgesOf]
  match hlookup : Members.lookup "edges" (specOf workflow) with
  | some (.arr edges) => exact absurd ⟨edges, hlookup⟩ h
  | none | some .null | some (.bool _) | some (.num _) | some (.str _) | some (.obj _) => rfl

theorem HasEdges.lookup (h : HasEdges workflow) :
    Members.lookup "edges" (specOf workflow) = some (.arr (edgesOf workflow)) := by
  obtain ⟨edges, hedges⟩ := h
  rw [edgesOf, hedges]
  rfl

namespace InsertsAgent

variable (h : InsertsAgent agent workflow workflow' selected inserted)

include h

theorem idsOf_eq : ∃ before after, idsOf workflow = before ++ some (.str selected) :: after ∧
    idsOf workflow' = before ++ some (.str selected) :: some (.str inserted) :: after := by
  obtain ⟨before, node, after, hnodes, hid, hnodes'⟩ := h.nodes
  refine ⟨before.map (memberAt "id"), after.map (memberAt "id"), ?_, ?_⟩
  · rw [idsOf, hnodes, List.map_append, List.map_cons, hid]
  · rw [idsOf, hnodes', List.map_append, List.map_cons, List.map_cons, hid, memberAt_agentNode]

theorem selected_mem : some (.str selected) ∈ idsOf workflow := by
  obtain ⟨before, after, hids, -⟩ := h.idsOf_eq
  rw [hids]
  exact List.mem_append_right _ List.mem_cons_self

theorem ne : (some (.str selected) : Option Json) ≠ some (.str inserted) := fun heq =>
  h.fresh (heq ▸ h.selected_mem)

theorem ids_subset : idsOf workflow ⊆ idsOf workflow' := by
  obtain ⟨before, after, hids, hids'⟩ := h.idsOf_eq
  rw [hids, hids']
  intro id hid
  simp only [List.mem_append, List.mem_cons] at hid ⊢
  tauto

theorem inserted_mem : some (.str inserted) ∈ idsOf workflow' := by
  obtain ⟨before, after, -, hids'⟩ := h.idsOf_eq
  rw [hids']
  simp

theorem nodup_ids (hnodup : (idsOf workflow).Nodup) : (idsOf workflow').Nodup := by
  obtain ⟨before, after, hids, hids'⟩ := h.idsOf_eq
  have hperm : (idsOf workflow').Perm (some (.str inserted) :: idsOf workflow) := by
    rw [hids, hids']
    have hswap := List.Perm.swap (some (.str inserted)) (some (.str selected)) after
    exact (hswap.append_left before).trans List.perm_middle
  exact hperm.nodup_iff.mpr (List.nodup_cons.mpr ⟨h.fresh, hnodup⟩)

theorem edgesOf_eq (hedges : HasEdges workflow) : edgesOf workflow'
    = (edgesOf workflow).map (movedEdge selected inserted) ++ [attachedEdge selected inserted] := by
  rw [edgesOf, h.edges, hedges.lookup]
  rfl

/-- **The graph after an insertion is the graph before with a vertex inserted.** -/
theorem edge_inserted (hedges : HasEdges workflow) :
    Edge workflow' = InsertedAfter (Edge workflow) (some (.str selected)) (some (.str inserted)) := by
  ext x y
  rw [Edge, h.edgesOf_eq hedges]
  constructor
  · rintro ⟨edge, hedge, hx, hy⟩
    rcases List.mem_append.mp hedge with hedge | hedge
    · obtain ⟨old, hold, rfl⟩ := List.mem_map.mp hedge
      rw [movedEdge] at hx hy
      split at hx
      · next hsource =>
        rw [if_pos hsource, memberAt_withSource, if_neg (by decide)] at hy
        rw [memberAt_withSource, if_pos rfl] at hx
        exact .inr (.inl ⟨hx.symm, old, hold, hsource, hy⟩)
      · next hsource =>
        rw [if_neg hsource] at hy
        exact .inl ⟨hx ▸ hsource, old, hold, hx, hy⟩
    · rw [List.mem_singleton.mp hedge] at hx hy
      exact .inr (.inr ⟨hx.symm, hy.symm⟩)
  · rintro (⟨hne, old, hold, hx, hy⟩ | ⟨rfl, old, hold, hsource, hy⟩ | ⟨rfl, rfl⟩)
    · refine ⟨movedEdge selected inserted old, List.mem_append_left _ (List.mem_map_of_mem hold), ?_⟩
      rw [movedEdge, if_neg (hx ▸ hne)]
      exact ⟨hx, hy⟩
    · refine ⟨movedEdge selected inserted old, List.mem_append_left _ (List.mem_map_of_mem hold), ?_⟩
      rw [movedEdge, if_pos hsource, memberAt_withSource, if_pos rfl, memberAt_withSource,
        if_neg (by decide)]
      exact ⟨rfl, hy⟩
    · exact ⟨_, List.mem_append_right _ (List.mem_singleton_self _), rfl, rfl⟩

/-- The edges into the inserted node. -/
theorem outgoing_selected (hedges : HasEdges workflow) :
    outgoing workflow' (some (.str selected)) = [attachedEdge selected inserted] := by
  have hmoved : ((edgesOf workflow).map (movedEdge selected inserted)).filter
      (fun edge => memberAt "from" edge = some (.str selected)) = [] := by
    refine List.filter_eq_nil_iff.mpr fun edge hedge => ?_
    obtain ⟨old, -, rfl⟩ := List.mem_map.mp hedge
    rw [movedEdge]
    split
    · rw [memberAt_withSource, if_pos rfl]
      simpa using Ne.symm h.ne
    · simpa
  rw [outgoing, h.edgesOf_eq hedges, List.filter_append, hmoved, List.nil_append, List.filter_singleton,
    (memberAt_attachedEdge selected inserted).1, decide_eq_true rfl, cond_true]

/-- The edges out of the inserted node. -/
theorem outgoing_inserted (hedges : HasEdges workflow)
    (hnone : ∀ edge ∈ edgesOf workflow, memberAt "from" edge ≠ some (.str inserted)) :
    outgoing workflow' (some (.str inserted))
      = (outgoing workflow (some (.str selected))).map (withSource inserted) := by
  have hattached : memberAt "from" (attachedEdge selected inserted) ≠ some (.str inserted) := h.ne
  rw [outgoing, h.edgesOf_eq hedges, List.filter_append, List.filter_singleton, outgoing]
  simp only [hattached, decide_false, cond_false, List.append_nil]
  generalize edgesOf workflow = edges at hnone ⊢
  induction edges with
  | nil => rfl
  | cons edge edges ih =>
    have ih := ih fun edge hedge => hnone edge (List.mem_cons_of_mem _ hedge)
    have hedge := hnone edge List.mem_cons_self
    rw [List.map_cons, List.filter_cons, List.filter_cons, ih, movedEdge]
    by_cases hsource : memberAt "from" edge = some (.str selected)
    · simp [hsource, memberAt_withSource]
    · simp [hsource, hedge]

/-- No edge of a resolved graph leaves the new node or leads to it. -/
theorem fresh_edge (hdag : Dag workflow) : Fresh (Edge workflow) (some (.str inserted)) where
  source y := by
    rintro ⟨edge, hedge, hsource, -⟩
    exact h.fresh (hsource ▸ (hdag.resolved edge hedge).1)
  target x := by
    rintro ⟨edge, hedge, -, htarget⟩
    exact h.fresh (htarget ▸ (hdag.resolved edge hedge).2)

theorem resolved (hdag : Dag workflow) (hedges : HasEdges workflow) :
    ∀ edge ∈ edgesOf workflow',
      memberAt "from" edge ∈ idsOf workflow' ∧ memberAt "to" edge ∈ idsOf workflow' := by
  intro edge hedge
  rw [h.edgesOf_eq hedges] at hedge
  rcases List.mem_append.mp hedge with hedge | hedge
  · obtain ⟨old, hold, rfl⟩ := List.mem_map.mp hedge
    obtain ⟨hsource, htarget⟩ := hdag.resolved old hold
    rw [movedEdge]
    split
    · rw [memberAt_withSource, if_pos rfl, memberAt_withSource, if_neg (by decide)]
      exact ⟨h.inserted_mem, h.ids_subset htarget⟩
    · exact ⟨h.ids_subset hsource, h.ids_subset htarget⟩
  · rw [List.mem_singleton.mp hedge]
    exact ⟨h.ids_subset h.selected_mem, h.inserted_mem⟩

/-- **Dependencies are kept where the edges are an array.** -/
theorem keepsDependencies (hdag : Dag workflow) (hedges : HasEdges workflow) :
    KeepsDependencies workflow workflow' selected inserted where
  dag := by
    refine ⟨h.nodup_ids hdag.distinct, h.resolved hdag hedges, ?_⟩
    rw [h.edge_inserted hedges]
    exact acyclic_insertedAfter (h.fresh_edge hdag) h.ne hdag.acyclic
  single := ⟨_, h.outgoing_selected hedges, rfl⟩
  moved := h.outgoing_inserted hedges fun edge hedge heq =>
    h.fresh (heq ▸ (hdag.resolved edge hedge).1)
  reachable x hx y hy := by
    rw [h.edge_inserted hedges]
    refine transGen_insertedAfter_iff (h.fresh_edge hdag) h.ne ?_ ?_
    · rintro rfl
      exact h.fresh hx
    · rintro rfl
      exact h.fresh hy

/-- Where the edges are no array, they are none after the insertion. -/
theorem not_hasEdges (hedges : ¬HasEdges workflow) : ¬HasEdges workflow' := by
  rintro ⟨edges, hedges'⟩
  have hnot : ∀ edges, Members.lookup "edges" (specOf workflow) ≠ some (.arr edges) :=
    fun edges heq => hedges ⟨edges, heq⟩
  rw [h.edges, insertedEdges_of_not_array hnot] at hedges'
  exact hnot edges hedges'

end InsertsAgent

end

/-- **An insertion keeps dependencies exactly when the edges of the workflow are an array.** -/
theorem insertAfter_keeps_iff {yaml : Yaml} {sources result : AuthoringSources} {input : AgentAttachment}
    (hmode : input.mode = .insertAfter) {inserted : String} {workflow workflow' : Json}
    (hbefore : yaml.parse sources.workflowSource = .ok workflow) (hdag : Dag workflow)
    (happly : applyAgentToAuthoringSources yaml sources input = .ok (result, inserted))
    (hafter : yaml.parse result.workflowSource = .ok workflow') :
    KeepsDependencies workflow workflow' input.nodeId inserted ↔ HasEdges workflow := by
  have h := applyAgent_insertAfter hmode hbefore happly hafter
  refine ⟨fun hkeeps => ?_, h.keepsDependencies hdag⟩
  by_contra hedges
  obtain ⟨edge, hsingle, -⟩ := hkeeps.single
  rw [outgoing, edgesOf_eq_nil (h.not_hasEdges hedges)] at hsingle
  cases hsingle

namespace Sample

/-- Two nodes, and what there is of edges. -/
def twoNodes (edges : List (String × Json)) : List (String × Json) :=
  ("nodes", .arr [node "intake" "input", node "result" "output"]) :: edges

/-- The nodes after an insertion between them. -/
def threeNodes (edges : List (String × Json)) : List (String × Json) :=
  ("nodes", .arr [node "intake" "input", agentNode reviewer "review" [] [], node "result" "output"]) :: edges

def oneEdge : List (String × Json) := [("edges", .arr [edge "e1" "intake" "result"])]

def twoEdges : List (String × Json) :=
  [("edges", .arr [edge "e1" "review" "result", edge "edge-intake-review" "intake" "review"])]

/-- How the nodes after the insertion are written. -/
def threeNodesText : String := nodeText "intake" "input" ++ agentText "review" ++ nodeText "result" "output"

/-- How the edges after the insertion are written. -/
def twoEdgesText : String :=
  "  edges:\n" ++ edgeText "e1" "review" "result" ++ edgeText "edge-intake-review" "intake" "review"

theorem apply_oneEdge (yaml : Yaml) :
    applyAgentToAuthoringSources yaml (sources yaml pkg (twoNodes oneEdge)) (behind "intake" "review")
      = .ok (sources yaml pkgWithAgent (threeNodes twoEdges), "review") := by
  have hnode : attachNode (behind "intake" "review") (twoNodes oneEdge)
      = .ok (threeNodes twoEdges, "review") := by rfl
  exact applyAgent_eq rfl hnode (attachContracts_pkg _ _ _)

theorem apply_noEdges (yaml : Yaml) :
    applyAgentToAuthoringSources yaml (sources yaml pkg (twoNodes [])) (behind "intake" "review")
      = .ok (sources yaml pkgWithAgent (threeNodes []), "review") := by
  have hnode : attachNode (behind "intake" "review") (twoNodes []) = .ok (threeNodes [], "review") := by rfl
  exact applyAgent_eq rfl hnode (attachContracts_pkg _ _ _)

/-- A graph with at most one edge, between the two nodes. -/
theorem dag_twoNodes {workflow : Json}
    (hnodes : nodesOf workflow = [node "intake" "input", node "result" "output"])
    (hedges : edgesOf workflow ⊆ [edge "e1" "intake" "result"]) : Dag workflow where
  distinct := by
    rw [idsOf, hnodes]
    decide
  resolved e he := by
    rw [idsOf, hnodes, List.mem_singleton.mp (hedges he)]
    decide
  acyclic := by
    have hedge : ∀ x y, Edge workflow x y → x = some (.str "intake") ∧ y = some (.str "result") := by
      rintro x y ⟨e, he, hx, hy⟩
      rw [List.mem_singleton.mp (hedges he)] at hx hy
      exact ⟨hx.symm, hy.symm⟩
    intro x hx
    obtain ⟨y, hxy, -⟩ := TransGen.head'_iff.mp hx
    obtain ⟨z, -, hzx⟩ := TransGen.tail'_iff.mp hx
    have heq := (hedge x y hxy).1.symm.trans (hedge z x hzx).2
    exact absurd heq (by decide)

end Sample

open Sample in
theorem insertAfter_keeps_sample :
    KeepsDependencies (.obj (workflow (twoNodes oneEdge))) (.obj (workflow (threeNodes twoEdges)))
      "intake" "review" ↔ HasEdges (.obj (workflow (twoNodes oneEdge))) := by
  have happly := apply_oneEdge (yaml (threeNodes twoEdges) (threeNodesText ++ twoEdgesText))
  have hdag : Dag (.obj (workflow (twoNodes oneEdge))) := dag_twoNodes rfl (List.Subset.refl _)
  exact insertAfter_keeps_iff rfl (parse_sources _ _ _) hdag happly (parse_sources _ _ _)

open Sample in
/-- A workflow without edges: the edge to the new node is lost. -/
theorem insertAfter_loses_edge :
    let library := yaml (threeNodes []) threeNodesText
    let before := Json.obj (workflow (twoNodes []))
    let after := Json.obj (workflow (threeNodes []))
    library.parse (sources library pkg (twoNodes [])).workflowSource = .ok before ∧ Dag before ∧
      applyAgentToAuthoringSources library (sources library pkg (twoNodes [])) (behind "intake" "review")
        = .ok (sources library pkgWithAgent (threeNodes []), "review") ∧
      library.parse (sources library pkgWithAgent (threeNodes [])).workflowSource = .ok after ∧
      ¬KeepsDependencies before after "intake" "review" := by
  intro library before after
  refine ⟨parse_sources _ _ _, dag_twoNodes rfl (List.nil_subset _), apply_noEdges library,
    parse_sources _ _ _, fun hkeeps => ?_⟩
  obtain ⟨edge, hsingle, -⟩ := hkeeps.single
  have hnone : outgoing after (some (.str "intake")) = [] := rfl
  rw [hnone] at hsingle
  cases hsingle

end ControlApi

end HarnessFramework
