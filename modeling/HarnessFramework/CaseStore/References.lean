import HarnessFramework.CaseStore.Writes
import HarnessFramework.Library.Table

/-!
# References between the objects of a case

Claims, facts, findings and recommendations cite other objects of their case by id, in columns
without foreign keys, and lineage edges join them. Most handlers look the cited objects up. Two do
not: findings cite facts, and recommendations cite findings and evidence, that need not exist.

## Main definitions

* `ObjectTables.ids` — the ids of the objects of a kind
* `ObjectTables.references` — the references recorded in the case
* `Referential` — every reference and every lineage edge names an object of the case
* `uncheckedRefs`, `Cites` — the references that a handler does not look up, and that they exist

## Main results

* `Writes.referential_iff` — a command keeps the references whole exactly if `Cites`
* `reference_integrity` — in whole runs
-/

namespace HarnessFramework

namespace CaseStore

/-- The ids of the objects of a kind. Evidence is an object of the case once it is linked and
accepted. -/
def ObjectTables.ids (s : ObjectTables) : ObjectKind → List String
  | .evidence => (s.evidenceRefs.filter fun r =>
      r.status = .accepted ∧ ∃ o ∈ s.evidenceObjects, o.evidenceId = r.evidenceId).map (·.evidenceId)
  | .claim => s.claims.map (·.claimId)
  | .fact => s.facts.map (·.factId)
  | .finding => s.findings.map (·.findingId)
  | .recommendation => s.recommendations.map (·.recommendationId)
  | .gateResult => s.gateResults.map (·.gateResultId)
  | .disposition => s.dispositions.map (·.dispositionId)

/-- A reference to an object of some kind. -/
abbrev Reference : Type := ObjectKind × String

/-- References to objects of one kind. -/
def refsTo (kind : ObjectKind) (ids : List String) : List Reference := ids.map (kind, ·)

/-- The references recorded in the claims, facts, findings and recommendations of the case. -/
def ObjectTables.references (s : ObjectTables) : List Reference :=
  (s.claims.flatMap fun c => refsTo .evidence c.evidenceRefs) ++
  (s.facts.flatMap fun f => refsTo .claim f.basisClaimRefs) ++
  (s.findings.flatMap fun f => refsTo .evidence f.evidenceRefs ++ refsTo .fact f.factRefs) ++
  (s.recommendations.flatMap fun r =>
    refsTo .finding r.findingRefs ++ refsTo .evidence r.evidenceRefs)

/-- The reference names an object of the case. -/
def ObjectTables.Has (s : ObjectTables) (ref : Reference) : Prop := ref.2 ∈ s.ids ref.1

/-- The lineage edge joins objects of the case. -/
def ObjectTables.Joins (s : ObjectTables) (row : LineageEdgeRow) : Prop :=
  ∃ source target : ObjectKind, row.sourceType = source.text ∧ s.Has (source, row.sourceId) ∧
    row.targetType = target.text ∧ s.Has (target, row.targetId)

/-- **Every reference and every lineage edge of the case names objects of the case.** -/
structure Referential (s : ObjectTables) : Prop where
  references : ∀ ref ∈ s.references, s.Has ref
  lineage : ∀ row ∈ s.lineageEdges, s.Joins row

/-- The references that the handler of a command does not look up. -/
def uncheckedRefs (command : BusinessCommand) : List Reference :=
  match command.commandType with
  | .recordScreeningFinding => refsTo .fact (citedRefs command "factRefs")
  | .submitDecisionRecommendation =>
    refsTo .finding (citedRefs command "findingRefs") ++
      refsTo .evidence (citedRefs command "evidenceRefs")
  | _ => []

/-- The references that the handler of the command does not look up name objects of the case. -/
def Cites (command : BusinessCommand) (s : ObjectTables) : Prop :=
  ∀ ref ∈ uncheckedRefs command, s.Has ref

/-- Links and claims have ids of their own, and links are to evidence of the case. -/
structure Keyed (s : ObjectTables) : Prop where
  evidenceRefs : (s.evidenceRefs.map (·.evidenceId)).Nodup
  claims : (s.claims.map (·.claimId)).Nodup
  evidenceObjects : ∀ r ∈ s.evidenceRefs, ∃ o ∈ s.evidenceObjects, o.evidenceId = r.evidenceId

section

variable {command : BusinessCommand} {s s' objects : ObjectTables} {lineage : List LineageEdge}
  {rows : List LineageEdgeRow}

@[simp] theorem mem_refsTo {kind : ObjectKind} {ids : List String} {ref : Reference} :
    ref ∈ refsTo kind ids ↔ ref.1 = kind ∧ ref.2 ∈ ids := by
  obtain ⟨kind', id⟩ := ref
  rw [refsTo, List.mem_map]
  constructor
  · rintro ⟨id, hid, heq⟩
    obtain ⟨rfl, rfl⟩ := Prod.mk.inj heq
    exact ⟨rfl, hid⟩
  · rintro ⟨rfl, hid⟩
    exact ⟨id, hid, rfl⟩

/-! ## Objects stay -/

/-- Every object of the case is one afterwards. -/
def Stays (s s' : ObjectTables) : Prop := ∀ ref, s.Has ref → s'.Has ref

theorem Stays.joins (h : Stays s s') {row : LineageEdgeRow} (hj : s.Joins row) : s'.Joins row := by
  obtain ⟨source, target, hs, hsource, ht, htarget⟩ := hj
  exact ⟨source, target, hs, h _ hsource, ht, h _ htarget⟩

/-- Objects stay where every table of ids only grows. -/
theorem Stays.of_ids (h : ∀ kind, s.ids kind ⊆ s'.ids kind) : Stays s s' := fun ref hhas => h ref.1 hhas

theorem ids_of_sameRecords (h : SameRecords s s') (kind : ObjectKind) : s'.ids kind = s.ids kind := by
  cases kind <;>
    simp only [ObjectTables.ids, h.evidenceObjects, h.evidenceRefs, h.claims, h.facts, h.findings,
      h.recommendations, h.gateResults, h.dispositions]

/-- The claims that become accepted keep their ids. -/
theorem map_claimId_accept (claims : List ClaimRow) (refs : List String) :
    (claims.map fun r => if r.claimId ∈ refs then { r with status := .accepted } else r).map
      (·.claimId) = claims.map (·.claimId) := by
  rw [List.map_map]
  refine List.map_congr_left fun r _ => ?_
  simp only [Function.comp]
  split <;> rfl

theorem Writes.stays (h : Writes command s lineage s') : Stays s s' := by
  refine .of_ids fun kind => ?_
  cases h with
  | other _ hsame _ => rw [ids_of_sameRecords hsame]; exact List.Subset.refl _
  | fact f _ hs' _ _ =>
    subst hs'
    cases kind with
    | claim =>
      intro id hid
      rwa [ObjectTables.ids, map_claimId_accept]
    | fact => exact List.map_subset _ (List.subset_append_left _ _)
    | _ => exact List.Subset.refl _
  | link r _ hs' _ _ _ | claim r _ hs' _ _ _ | finding r _ hs' _ _ _ | recommendation r _ hs' _ _ _
  | gateResult r _ hs' _ _ | qaResult r _ hs' _ _ _ _ | review r _ hs' _ _ _ _
  | disposition r _ hs' _ _ =>
    subst hs'
    cases kind <;>
      simp only [ObjectTables.ids, List.filter_append, List.map_append, List.subset_append_left,
        List.Subset.refl]

theorem stays_register {rows : List EvidenceObjectRow} :
    Stays s { s with evidenceObjects := s.evidenceObjects ++ rows } := by
  refine .of_ids fun kind => ?_
  cases kind with
  | evidence =>
    refine List.map_subset _ fun r hr => ?_
    rw [List.mem_filter, decide_eq_true_eq] at hr ⊢
    obtain ⟨hr, hstatus, o, ho, hid⟩ := hr
    exact ⟨hr, hstatus, o, List.mem_append_left _ ho, hid⟩
  | _ => exact List.Subset.refl _

/-! ## Keys -/

theorem Keyed.concat_claim {claims : List ClaimRow} {c : ClaimRow}
    (h : (claims.map (·.claimId)).Nodup) (hnew : ¬ ∃ r ∈ claims, r.claimId = c.claimId) :
    ((claims ++ [c]).map (·.claimId)).Nodup := by
  rw [List.map_append, List.map_singleton, ← List.concat_eq_append, List.nodup_concat]
  exact ⟨fun hmem => hnew (List.mem_map.mp hmem), h⟩

theorem Writes.keyed (hk : Keyed s) (h : Writes command s lineage s') : Keyed s' := by
  cases h with
  | link r _ hs' _ hobject hnew =>
    subst hs'
    refine ⟨?_, hk.claims, ?_⟩
    · rw [List.map_append, List.map_singleton, ← List.concat_eq_append, List.nodup_concat]
      exact ⟨fun hmem => hnew (List.mem_map.mp hmem), hk.evidenceRefs⟩
    · rw [List.forall_mem_append, List.forall_mem_singleton]
      exact ⟨hk.evidenceObjects, hobject⟩
  | claim c _ hs' _ _ hnew =>
    subst hs'
    exact ⟨hk.evidenceRefs, Keyed.concat_claim hk.claims hnew, hk.evidenceObjects⟩
  | fact f _ hs' _ _ =>
    subst hs'
    refine ⟨hk.evidenceRefs, ?_, hk.evidenceObjects⟩
    rw [map_claimId_accept]
    exact hk.claims
  | other _ hsame _ =>
    refine ⟨?_, ?_, ?_⟩
    · rw [hsame.evidenceRefs]; exact hk.evidenceRefs
    · rw [hsame.claims]; exact hk.claims
    · rw [hsame.evidenceRefs, hsame.evidenceObjects]; exact hk.evidenceObjects
  | finding _ _ hs' | recommendation _ _ hs' | gateResult _ _ hs' | qaResult _ _ hs'
  | review _ _ hs' | disposition _ _ hs' =>
    subst hs'
    exact ⟨hk.evidenceRefs, hk.claims, hk.evidenceObjects⟩

/-- As many accepted links as references, so every reference is to linked evidence. -/
theorem Keyed.has_evidence (hk : Keyed s) {refs : List String} (h : LinkedEvidence s refs)
    {id : String} (hid : id ∈ refs) : s.Has (.evidence, id) := by
  rcases h with h | h
  · rw [List.length_eq_zero_iff.mp h] at hid
    exact absurd hid List.not_mem_nil
  · obtain ⟨r, hr, ⟨-, hstatus⟩, rfl⟩ :=
      exists_row_of_length_filter hk.evidenceRefs (fun r hr => hr.1) h hid
    refine List.mem_map_of_mem (List.mem_filter.mpr ⟨hr, ?_⟩)
    rw [decide_eq_true_eq]
    exact ⟨hstatus, hk.evidenceObjects r hr⟩

/-- As many claims as references, so every reference is to a claim. -/
theorem Keyed.has_claim (hk : Keyed s) {refs : List String}
    (h : (s.claims.filter fun r => r.claimId ∈ refs).length = refs.length) {id : String}
    (hid : id ∈ refs) : s.Has (.claim, id) := by
  obtain ⟨r, hr, -, rfl⟩ := exists_row_of_length_filter hk.claims (fun r hr => hr) h hid
  exact List.mem_map_of_mem hr

/-! ## What a command does to references -/

/-- The references that a command records are those it checks and those it does not. -/
theorem Writes.references (hk : Keyed s) (h : Writes command s lineage s') :
    ∃ checked : List Reference, (∀ ref ∈ checked, s.Has ref) ∧
      ∀ ref, ref ∈ s'.references ↔
        ref ∈ s.references ∨ ref ∈ checked ∨ ref ∈ uncheckedRefs command := by
  cases h with
  | claim c htype hs' _ hlinked _ =>
    subst hs'
    refine ⟨refsTo .evidence c.evidenceRefs, ?_, fun ref => ?_⟩
    · rintro ⟨kind, id⟩ hmem
      obtain ⟨rfl, hid⟩ := mem_refsTo.mp hmem
      exact hk.has_evidence hlinked hid
    · simp only [ObjectTables.references, uncheckedRefs, htype, List.flatMap_append,
        List.flatMap_singleton, List.mem_append, List.not_mem_nil]
      tauto
  | fact f htype hs' _ hfound =>
    subst hs'
    refine ⟨refsTo .claim f.basisClaimRefs, ?_, fun ref => ?_⟩
    · rintro ⟨kind, id⟩ hmem
      obtain ⟨rfl, hid⟩ := mem_refsTo.mp hmem
      exact hk.has_claim hfound hid
    · have hclaims : ((s.claims.map fun r => if r.claimId ∈ f.basisClaimRefs then
          { r with status := ClaimStatus.accepted } else r).flatMap fun c =>
            refsTo .evidence c.evidenceRefs) =
          s.claims.flatMap fun c => refsTo .evidence c.evidenceRefs := by
        rw [List.flatMap_map]
        refine congrArg (List.flatMap · s.claims) (funext fun r => ?_)
        show refsTo .evidence (ite _ _ _ : ClaimRow).evidenceRefs = _
        split <;> rfl
      simp only [ObjectTables.references, hclaims, uncheckedRefs, htype, List.flatMap_append,
        List.flatMap_singleton, List.mem_append, List.not_mem_nil]
      tauto
  | finding f htype hs' _ hlinked hfacts =>
    subst hs'
    refine ⟨refsTo .evidence f.evidenceRefs, ?_, fun ref => ?_⟩
    · rintro ⟨kind, id⟩ hmem
      obtain ⟨rfl, hid⟩ := mem_refsTo.mp hmem
      exact hk.has_evidence hlinked hid
    · simp only [ObjectTables.references, uncheckedRefs, htype, ← hfacts, List.flatMap_append,
        List.flatMap_singleton, List.mem_append]
      tauto
  | recommendation r htype hs' _ hfindings hevidence =>
    subst hs'
    refine ⟨[], List.forall_mem_nil _, fun ref => ?_⟩
    simp only [ObjectTables.references, uncheckedRefs, htype, ← hfindings, ← hevidence,
      List.flatMap_append, List.flatMap_singleton, List.mem_append, List.not_mem_nil]
    tauto
  | other htype hsame _ =>
    refine ⟨[], List.forall_mem_nil _, fun ref => ?_⟩
    have hnone : uncheckedRefs command = [] := by
      simp only [List.mem_cons, List.not_mem_nil, or_false] at htype
      rcases htype with h | h | h | h | h | h | h | h | h | h <;> simp only [uncheckedRefs, h]
    rw [hnone, ObjectTables.references, hsame.claims, hsame.facts, hsame.findings,
      hsame.recommendations]
    simp only [ObjectTables.references, List.not_mem_nil, or_false]
  | link _ htype hs' | gateResult _ htype hs' | qaResult _ htype hs' | review _ htype hs'
  | disposition _ htype hs' =>
    subst hs'
    refine ⟨[], List.forall_mem_nil _, fun ref => ?_⟩
    simp only [ObjectTables.references, uncheckedRefs, htype, List.not_mem_nil, or_false]

/-- The objects that a command cites unchecked are not those that it adds. -/
theorem Writes.has_of_unchecked (h : Writes command s lineage s') {ref : Reference}
    (hmem : ref ∈ uncheckedRefs command) (hhas : s'.Has ref) : s.Has ref := by
  obtain ⟨kind, id⟩ := ref
  cases h with
  | finding f htype hs' =>
    subst hs'
    rw [uncheckedRefs, htype] at hmem
    obtain ⟨rfl, -⟩ := mem_refsTo.mp hmem
    exact hhas
  | recommendation r htype hs' =>
    subst hs'
    rw [uncheckedRefs, htype] at hmem
    rcases List.mem_append.mp hmem with hmem | hmem <;> obtain ⟨rfl, -⟩ := mem_refsTo.mp hmem <;>
      exact hhas
  | other htype =>
    simp only [List.mem_cons, List.not_mem_nil, or_false] at htype
    rcases htype with h | h | h | h | h | h | h | h | h | h <;>
      simp only [uncheckedRefs, h, List.not_mem_nil] at hmem
  | link _ htype | claim _ htype | fact _ htype | gateResult _ htype | qaResult _ htype
  | review _ htype | disposition _ htype =>
    simp only [uncheckedRefs, htype, List.not_mem_nil] at hmem

/-- The edge joins objects of the case. -/
def LineageEdge.Joined (s : ObjectTables) (edge : LineageEdge) : Prop :=
  ∃ source target : ObjectKind, edge.sourceType = source.text ∧ s.Has (source, edge.sourceId) ∧
    edge.targetType = target.text ∧ s.Has (target, edge.targetId)

theorem LineageEdge.Joined.joins {edge : LineageEdge} (h : edge.Joined s) {row : LineageEdgeRow}
    (hrow : edge.StoredAs row) : s.Joins row := by
  rw [ObjectTables.Joins, hrow.sourceType, hrow.sourceId, hrow.targetType, hrow.targetId]
  exact h

/-- Edges from objects of one kind to one object. -/
theorem joined_of_mem_map {source target : ObjectKind} {predicate targetId : String}
    {ids : List String} (hsource : ∀ id ∈ ids, s.Has (source, id)) (htarget : s.Has (target, targetId))
    {edge : LineageEdge} (hedge : edge ∈ ids.map (lineageEdge source predicate target targetId)) :
    edge.Joined s := by
  obtain ⟨id, hid, rfl⟩ := List.mem_map.mp hedge
  exact ⟨source, target, rfl, hsource id hid, rfl, htarget⟩

/-- The lineage of a command joins objects of the case, if what it cites unchecked exists. -/
theorem Writes.joined (hk : Keyed s) (h : Writes command s lineage s') (hc : Cites command s)
    {edge : LineageEdge} (hedge : edge ∈ lineage) : edge.Joined s' := by
  have hstays := h.stays
  have hlast {ids : List String} {id : String} : id ∈ ids ++ [id] :=
    List.mem_append_right _ (List.mem_singleton_self id)
  cases h with
  | claim c _ hs' hlineage hlinked _ =>
    subst hs' hlineage
    refine joined_of_mem_map (fun id hid => hstays _ (hk.has_evidence hlinked hid)) ?_ hedge
    rw [ObjectTables.Has, ObjectTables.ids, List.map_append]
    exact hlast
  | fact f _ hs' hlineage hfound =>
    subst hs' hlineage
    refine joined_of_mem_map (fun id hid => hstays _ (hk.has_claim hfound hid)) ?_ hedge
    rw [ObjectTables.Has, ObjectTables.ids, List.map_append]
    exact hlast
  | finding f htype hs' hlineage hlinked hfacts =>
    subst hs' hlineage
    have htarget : ObjectTables.Has { s with findings := s.findings ++ [f] }
        (.finding, f.findingId) := by
      rw [ObjectTables.Has, ObjectTables.ids, List.map_append]
      exact hlast
    rcases List.mem_append.mp hedge with hedge | hedge
    · exact joined_of_mem_map (fun id hid => hstays _ (hk.has_evidence hlinked hid)) htarget hedge
    · refine joined_of_mem_map (fun id hid => hstays _ (hc _ ?_)) htarget hedge
      rw [uncheckedRefs, htype, mem_refsTo, ← hfacts]
      exact ⟨rfl, hid⟩
  | recommendation r htype hs' hlineage hfindings _ =>
    subst hs' hlineage
    refine joined_of_mem_map (fun id hid => hstays _ (hc _ ?_)) ?_ hedge
    · rw [uncheckedRefs, htype, List.mem_append, mem_refsTo, ← hfindings]
      exact .inl ⟨rfl, hid⟩
    · rw [ObjectTables.Has, ObjectTables.ids, List.map_append]
      exact hlast
  | gateResult g _ hs' hlineage hfound =>
    subst hs' hlineage
    obtain rfl := List.mem_singleton.mp hedge
    obtain ⟨r, hr, hid⟩ := hfound
    refine ⟨.recommendation, .gateResult, rfl, hstays _ ?_, rfl, ?_⟩
    · exact List.mem_map.mpr ⟨r, hr, hid⟩
    · rw [ObjectTables.Has, ObjectTables.ids, List.map_append]
      exact hlast
  | disposition d _ hs' hlineage hfound =>
    subst hs' hlineage
    obtain rfl := List.mem_singleton.mp hedge
    obtain ⟨g, hg, hid⟩ := hfound
    refine ⟨.gateResult, .disposition, rfl, hstays _ ?_, rfl, ?_⟩
    · exact List.mem_map.mpr ⟨g, hg, hid⟩
    · rw [ObjectTables.Has, ObjectTables.ids, List.map_append]
      exact hlast
  | link _ _ _ hlineage | qaResult _ _ _ hlineage | review _ _ _ hlineage | other _ _ hlineage =>
    rw [hlineage] at hedge
    exact absurd hedge List.not_mem_nil

theorem Writes.lineageEdges (h : Writes command s lineage s') : s'.lineageEdges = s.lineageEdges := by
  cases h with
  | other _ hsame => exact hsame.lineageEdges
  | link _ _ hs' | claim _ _ hs' | fact _ _ hs' | finding _ _ hs' | recommendation _ _ hs'
  | gateResult _ _ hs' | qaResult _ _ hs' | review _ _ hs' | disposition _ _ hs' => rw [hs']

/-- **A command keeps the references of a case whole exactly if what it cites unchecked exists.** -/
theorem Writes.referential_iff (hk : Keyed s) (h : Writes command s lineage objects)
    (hrows : ∀ row ∈ rows, ∃ edge ∈ lineage, edge.StoredAs row) (hr : Referential s) :
    Referential { objects with lineageEdges := objects.lineageEdges ++ rows } ↔ Cites command s := by
  obtain ⟨checked, hchecked, hreferences⟩ := h.references hk
  constructor
  · intro hafter ref hmem
    exact h.has_of_unchecked hmem (hafter.references ref ((hreferences ref).mpr (.inr (.inr hmem))))
  · intro hc
    refine ⟨fun ref hmem => ?_, fun row hrow => ?_⟩
    · have hbefore : s.Has ref := by
        rcases (hreferences ref).mp hmem with hold | hnew | hnew
        · exact hr.references ref hold
        · exact hchecked ref hnew
        · exact hc ref hnew
      exact h.stays ref hbefore
    · rcases List.mem_append.mp hrow with hold | hnew
      · rw [h.lineageEdges] at hold
        exact h.stays.joins (hr.lineage row hold)
      · obtain ⟨edge, hedge, hstored⟩ := hrows row hnew
        exact (h.joined hk hc hedge).joins hstored

/-! ## Whole runs -/

/-- **The references of a case stay whole exactly as long as every accepted command cites what
exists.** -/
theorem WrittenHistory.referential_iff {es : List CaseEntry} {t : CaseTables}
    (h : WrittenHistory es t) : Throughout Referential es t ↔ AcceptedOnly Cites es := by
  have hkeyed : Keyed .empty := ⟨List.nodup_nil, List.nodup_nil, List.forall_mem_nil _⟩
  have hempty : Referential .empty := ⟨List.forall_mem_nil _, List.forall_mem_nil _⟩
  refine (h.throughout_iff ⟨hkeyed, hempty⟩ ?_ ?_).2
  · intro s rows hk
    refine ⟨⟨hk.evidenceRefs, hk.claims, fun r hr => ?_⟩, fun hr => ⟨?_, ?_⟩⟩
    · obtain ⟨o, ho, hid⟩ := hk.evidenceObjects r hr
      exact ⟨o, List.mem_append_left _ ho, hid⟩
    · exact fun ref href => stays_register ref (hr.references ref href)
    · exact fun row hrow => stays_register.joins (hr.lineage row hrow)
  · intro command s lineage objects rows hk hwrites hrows
    have hk' := hwrites.keyed hk
    exact ⟨⟨hk'.evidenceRefs, hk'.claims, hk'.evidenceObjects⟩, hwrites.referential_iff hk hrows⟩

end

namespace Sample

/-- A finding that cites a fact. -/
def findingCall : Call :=
  staleCall ⟨"find", by decide⟩ .recordScreeningFinding 1
    [("findingType", .str "SANCTIONS"), ("reason", .str "reason"), ("factRefs", .arr [.str "fact"])]

end Sample

section

variable {sha256 : List Char → String} {evidenceRequireScan : Bool} {ι : Type} [DecidableEq ι]
  {s : CaseSystem ι}

/-- **Reference integrity.** In every state that clients of the case store reach side by side, every
reference and every lineage edge of the case named objects of the case throughout its history exactly
if every finding accepted in it cited existing facts, and every recommendation existing findings and
linked evidence. -/
theorem reference_integrity
    (h : System.Reachable (caseService sha256 evidenceRequireScan) OutboxRelay noCases s)
    (key : CaseKey) :
    Throughout Referential (s.history (caseService sha256 evidenceRequireScan) key) (s.db key) ↔
      AcceptedOnly Cites (s.history (caseService sha256 evidenceRequireScan) key) :=
  WrittenHistory.referential_iff (h.store.history (call_written sha256 evidenceRequireScan) key)

open Sample in
theorem reference_integrity_sample :
    Throughout Referential
        ((after actorDigest [createCall, findingCall]).history (caseService actorDigest false)
          (caseKey actorDigest))
        ((after actorDigest [createCall, findingCall]).db (caseKey actorDigest)) ↔
      AcceptedOnly Cites
        ((after actorDigest [createCall, findingCall]).history (caseService actorDigest false)
          (caseKey actorDigest)) :=
  reference_integrity (reachable_after actorDigest [createCall, findingCall]) (caseKey actorDigest)

open Sample in
set_option maxRecDepth 40000 in
/-- A finding of the case cites a fact that does not exist. -/
theorem dangling_fact :
    ¬ ∀ (s : CaseSystem Unit),
      System.Reachable (caseService actorDigest false) OutboxRelay noCases s →
      ∀ key, Referential (s.db key).objects := by
  intro hclaim
  have hreferential := hclaim _ (reachable_after actorDigest [createCall, findingCall])
    (caseKey actorDigest)
  have hobjects :
      let objects := ((after actorDigest [createCall, findingCall]).db (caseKey actorDigest)).objects
      objects.references = [(.fact, "fact")] ∧ objects.facts.map (·.factId) = [] := by
    decide +kernel
  obtain ⟨hreferences, hfacts⟩ := hobjects
  have hhas := hreferential.references (.fact, "fact") (hreferences ▸ List.mem_singleton_self _)
  rw [ObjectTables.Has, ObjectTables.ids, hfacts] at hhas
  exact absurd hhas List.not_mem_nil

end

end CaseStore

end HarnessFramework
