import HarnessFramework.ControlApi.Attachment

/-!
# Edge ids under editing

Every insertion adds an edge whose id is joined from the ids of the selected and the new node with
hyphens, and looks at no other id. So a workflow keeps distinct edge ids exactly as long as no insertion
finds an edge with the id that it adds.

## Main definitions

* `edgeIds` — the ids of the edges
* `Insertions` — a sequence of insertions, with the workflows they are made to
* `Insertion.Collides` — an insertion finds an edge with the id that it adds

## Main results

* `InsertsAgent.nodup_edgeIds_iff` — what one insertion does to distinct ids
* `edgeIds_distinct_iff` — a sequence keeps ids distinct exactly when no insertion collides
-/

namespace HarnessFramework

namespace ControlApi

/-- The ids of the edges. -/
def edgeIds (workflow : Json) : List (Option Json) := (edgesOf workflow).map (memberAt "id")

/-! ## One insertion -/

/-- An insertion: the workflow it is made to, the selected node and the new one. -/
structure Insertion where
  workflow : Json
  selected : String
  inserted : String

/-- The insertion finds an edge with the id that it adds. -/
def Insertion.Collides (step : Insertion) : Prop :=
  HasEdges step.workflow ∧
    some (.str (attachedEdgeId step.selected step.inserted)) ∈ edgeIds step.workflow

theorem memberAt_movedEdge (selected inserted : String) (edge : Json) :
    memberAt "id" (movedEdge selected inserted edge) = memberAt "id" edge := by
  rw [movedEdge]
  split
  · rw [memberAt_withSource, if_neg (by decide)]
  · rfl

theorem edgeIds_eq_nil {workflow : Json} (h : ¬HasEdges workflow) : edgeIds workflow = [] := by
  rw [edgeIds, edgesOf_eq_nil h]
  rfl

section

variable {agent : AgentRegistration} {workflow workflow' : Json} {selected inserted : String}

namespace InsertsAgent

variable (h : InsertsAgent agent workflow workflow' selected inserted)

include h

/-- An insertion adds one id. -/
theorem edgeIds_eq (hedges : HasEdges workflow) :
    edgeIds workflow' = edgeIds workflow ++ [some (.str (attachedEdgeId selected inserted))] := by
  have hmoved : ((edgesOf workflow).map (movedEdge selected inserted)).map (memberAt "id")
      = edgeIds workflow := by
    rw [List.map_map]
    exact List.map_congr_left fun edge _ => memberAt_movedEdge selected inserted edge
  rw [edgeIds, h.edgesOf_eq hedges, List.map_append, hmoved]
  rfl

/-- **Ids are distinct after an insertion** if they were before and it does not collide. -/
theorem nodup_edgeIds_iff : (edgeIds workflow').Nodup ↔
    (edgeIds workflow).Nodup ∧ ¬Insertion.Collides ⟨workflow, selected, inserted⟩ := by
  by_cases hedges : HasEdges workflow
  · have hcollides : Insertion.Collides ⟨workflow, selected, inserted⟩ ↔
        some (.str (attachedEdgeId selected inserted)) ∈ edgeIds workflow :=
      and_iff_right hedges
    rw [h.edgeIds_eq hedges, hcollides, ← List.concat_eq_append, List.nodup_concat]
    exact and_comm
  · rw [edgeIds_eq_nil (h.not_hasEdges hedges), edgeIds_eq_nil hedges]
    exact iff_of_true List.nodup_nil ⟨List.nodup_nil, fun hcollides => hedges hcollides.1⟩

end InsertsAgent

end

/-! ## Sequences of insertions -/

/-- **Insertions one after another**, each into the sources that the one before wrote. -/
inductive Insertions (yaml : Yaml) : AuthoringSources → List Insertion → AuthoringSources → Prop
  | nil (sources : AuthoringSources) : Insertions yaml sources [] sources
  | cons {sources next last : AuthoringSources} {input : AgentAttachment} {inserted : String}
      {workflow : Json} {steps : List Insertion} :
      input.mode = .insertAfter → yaml.parse sources.workflowSource = .ok workflow →
      applyAgentToAuthoringSources yaml sources input = .ok (next, inserted) →
      Insertions yaml next steps last →
      Insertions yaml sources (⟨workflow, input.nodeId, inserted⟩ :: steps) last

/-- The workflow that was written parses. -/
theorem exists_written {yaml : Yaml} {sources result : AuthoringSources} {input : AgentAttachment}
    {inserted : String} (h : applyAgentToAuthoringSources yaml sources input = .ok (result, inserted)) :
    ∃ workflow, yaml.parse result.workflowSource = .ok workflow := by
  simp only [applyAgentToAuthoringSources, Checks.bind_eq_ok, Checks.pure_eq_ok] at h
  obtain ⟨_, -, _, -, _, -, _, -, _, -, _, -, _, -, h⟩ := h
  obtain ⟨rfl, -⟩ := Prod.mk.inj h
  exact ⟨_, yaml.parse_stringify _⟩

/-- What a sequence does to distinct ids. -/
theorem Insertions.nodup_edgeIds_iff {yaml : Yaml} {sources last : AuthoringSources} {steps : List Insertion}
    (h : Insertions yaml sources steps last) {workflow workflow' : Json}
    (hbefore : yaml.parse sources.workflowSource = .ok workflow)
    (hafter : yaml.parse last.workflowSource = .ok workflow') :
    (edgeIds workflow').Nodup ↔ (edgeIds workflow).Nodup ∧ ∀ step ∈ steps, ¬step.Collides := by
  induction h generalizing workflow with
  | nil sources =>
    obtain rfl := Except.ok.inj (hbefore.symm.trans hafter)
    exact (and_iff_left fun _ hstep => absurd hstep List.not_mem_nil).symm
  | cons hmode hparse happly _ ih =>
    obtain rfl := Except.ok.inj (hparse.symm.trans hbefore)
    obtain ⟨next, hnext⟩ := exists_written happly
    rw [ih hnext hafter, (applyAgent_insertAfter hmode hparse happly hnext).nodup_edgeIds_iff, and_assoc,
      List.forall_mem_cons]

/-- **Edge ids stay distinct under editing exactly when no insertion collides.** -/
theorem edgeIds_distinct_iff {yaml : Yaml} {sources last : AuthoringSources} {steps : List Insertion}
    (hrun : Insertions yaml sources steps last) {workflow workflow' : Json}
    (hbefore : yaml.parse sources.workflowSource = .ok workflow)
    (hafter : yaml.parse last.workflowSource = .ok workflow') (hdistinct : (edgeIds workflow).Nodup) :
    (edgeIds workflow').Nodup ↔ ∀ step ∈ steps, ¬step.Collides := by
  rw [hrun.nodup_edgeIds_iff hbefore hafter]
  exact and_iff_right hdistinct

open Sample in
theorem edgeIds_distinct_sample :
    (edgeIds (.obj (workflow (threeNodes twoEdges)))).Nodup ↔
      ∀ step ∈ [(⟨.obj (workflow (twoNodes oneEdge)), "intake", "review"⟩ : Insertion)], ¬step.Collides := by
  have hrun := Insertions.cons rfl (parse_sources _ _ _)
    (apply_oneEdge (yaml (threeNodes twoEdges) (threeNodesText ++ twoEdgesText))) (.nil _)
  exact edgeIds_distinct_iff hrun (parse_sources _ _ _) (parse_sources _ _ _)
    (show [some (Json.str "e1")].Nodup from List.nodup_singleton _)

namespace Sample

/-- An edge whose id is the one that an insertion adds. -/
def authoredEdge : List (String × Json) := [("edges", .arr [edge "edge-intake-review" "intake" "result"])]

def collidedEdges : List (String × Json) :=
  [("edges", .arr [edge "edge-intake-review" "review" "result", edge "edge-intake-review" "intake" "review"])]

/-- How the edges after the insertion are written. -/
def collidedText : String := "  edges:\n" ++ edgeText "edge-intake-review" "review" "result" ++
  edgeText "edge-intake-review" "intake" "review"

theorem apply_authoredEdge (yaml : Yaml) :
    applyAgentToAuthoringSources yaml (sources yaml pkg (twoNodes authoredEdge)) (behind "intake" "review")
      = .ok (sources yaml pkgWithAgent (threeNodes collidedEdges), "review") := by
  have hnode : attachNode (behind "intake" "review") (twoNodes authoredEdge)
      = .ok (threeNodes collidedEdges, "review") := by rfl
  exact applyAgent_eq rfl hnode (attachContracts_pkg _ _ _)

end Sample

open Sample in
/-- An authored edge has the id that an insertion adds. -/
theorem edgeIds_collide :
    let library := yaml (threeNodes collidedEdges) (threeNodesText ++ collidedText)
    let before := Json.obj (workflow (twoNodes authoredEdge))
    let after := Json.obj (workflow (threeNodes collidedEdges))
    library.parse (sources library pkg (twoNodes authoredEdge)).workflowSource = .ok before ∧
      (edgeIds before).Nodup ∧
      Insertions library (sources library pkg (twoNodes authoredEdge)) [⟨before, "intake", "review"⟩]
        (sources library pkgWithAgent (threeNodes collidedEdges)) ∧
      library.parse (sources library pkgWithAgent (threeNodes collidedEdges)).workflowSource = .ok after ∧
      ¬(edgeIds after).Nodup := by
  intro library before after
  have hrun : Insertions library (sources library pkg (twoNodes authoredEdge))
      [⟨before, "intake", "review"⟩] (sources library pkgWithAgent (threeNodes collidedEdges)) :=
    .cons rfl (parse_sources _ _ _) (apply_authoredEdge library) (.nil _)
  have hafter : edgeIds after = [some (.str "edge-intake-review"), some (.str "edge-intake-review")] := rfl
  refine ⟨parse_sources _ _ _, List.nodup_singleton _, hrun, parse_sources _ _ _, ?_⟩
  rw [hafter]
  exact fun hnodup => (List.nodup_cons.mp hnodup).1 (List.mem_singleton_self _)

end ControlApi

end HarnessFramework
