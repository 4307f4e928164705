import HarnessFramework.CaseStore.Freshness

/-!
# The rows that a command writes

`applyMutation_writes` lists, for the tables of evidence links, claims, facts, findings,
recommendations, gate results, reviews and dispositions, the row that an accepted command adds, what
its handler checked of it, and the lineage edges that it reports.

## Main definitions

* `ObjectKind` — what the ends of lineage edges are called
* `citedRefs` — the references under a member of the payload
* `Writes` — the row that a command adds, by its kind
* `CallWrites` — what a call does to these tables
* `Throughout`, `AcceptedOnly` — what holds along a history, and of the commands accepted in it

## Main results

* `applyMutation_writes` — for all eighteen kinds
* `call_written` — for all calls
* `WrittenHistory.throughout_iff` — the rule for what a command keeps exactly if it meets a condition
-/

namespace HarnessFramework

namespace CaseStore

/-- The kinds of objects that lineage edges join. -/
inductive ObjectKind
  | evidence
  | claim
  | fact
  | finding
  | recommendation
  | gateResult
  | disposition
deriving DecidableEq, Repr

/-- What a lineage edge calls the kind. -/
def ObjectKind.text : ObjectKind → String
  | evidence => "Evidence"
  | claim => "Claim"
  | fact => "Fact"
  | finding => "Finding"
  | recommendation => "DecisionRecommendation"
  | gateResult => "DecisionGateResult"
  | disposition => "FinalDisposition"

/-- A lineage edge from one object to another. -/
def lineageEdge (source : ObjectKind) (predicate : String) (target : ObjectKind) (targetId : String)
    (sourceId : String) : LineageEdge :=
  ⟨source.text, sourceId, predicate, target.text, targetId⟩

/-- The texts under a member of the payload. -/
def citedRefs (command : BusinessCommand) (key : String) : List String :=
  match field command key with
  | some (.arr items) => items.filterMap string?
  | _ => []

/-- As many accepted links as references. -/
def LinkedEvidence (s : ObjectTables) (evidenceRefs : List String) : Prop :=
  evidenceRefs.length = 0 ∨
    (s.evidenceRefs.filter fun r => r.evidenceId ∈ evidenceRefs ∧ r.status = .accepted).length
      = evidenceRefs.length

/-- The tables that `Writes` is about are the same. -/
structure SameRecords (s s' : ObjectTables) : Prop where
  evidenceObjects : s'.evidenceObjects = s.evidenceObjects
  evidenceRefs : s'.evidenceRefs = s.evidenceRefs
  claims : s'.claims = s.claims
  facts : s'.facts = s.facts
  findings : s'.findings = s.findings
  recommendations : s'.recommendations = s.recommendations
  gateResults : s'.gateResults = s.gateResults
  reviews : s'.reviews = s.reviews
  dispositions : s'.dispositions = s.dispositions
  lineageEdges : s'.lineageEdges = s.lineageEdges

/-- The row that a command adds to the tables, its lineage, and what its handler checked of it. -/
inductive Writes (command : BusinessCommand) (s : ObjectTables) (lineage : List LineageEdge)
    (s' : ObjectTables) : Prop
  | link (r : EvidenceRefRow) : command.commandType = .linkEvidence →
      s' = { s with evidenceRefs := s.evidenceRefs ++ [r] } → lineage = [] →
      (∃ o ∈ s.evidenceObjects, o.evidenceId = r.evidenceId) →
      (¬ ∃ r' ∈ s.evidenceRefs, r'.evidenceId = r.evidenceId) → Writes command s lineage s'
  | claim (c : ClaimRow) : command.commandType = .proposeClaim →
      s' = { s with claims := s.claims ++ [c] } →
      lineage = c.evidenceRefs.map (lineageEdge .evidence "ASSERTS" .claim c.claimId) →
      LinkedEvidence s c.evidenceRefs → (¬ ∃ r ∈ s.claims, r.claimId = c.claimId) →
      Writes command s lineage s'
  | fact (f : FactRow) : command.commandType = .acceptClaimAsFact →
      s' = { s with
        facts := s.facts ++ [f]
        claims := s.claims.map fun r =>
          if r.claimId ∈ f.basisClaimRefs then { r with status := .accepted } else r } →
      lineage = f.basisClaimRefs.map (lineageEdge .claim "ACCEPTED_AS" .fact f.factId) →
      (s.claims.filter fun r => r.claimId ∈ f.basisClaimRefs).length = f.basisClaimRefs.length →
      Writes command s lineage s'
  | finding (f : FindingRow) : command.commandType = .recordScreeningFinding →
      s' = { s with findings := s.findings ++ [f] } →
      lineage = f.evidenceRefs.map (lineageEdge .evidence "SUPPORTS" .finding f.findingId) ++
        f.factRefs.map (lineageEdge .fact "SUPPORTS" .finding f.findingId) →
      LinkedEvidence s f.evidenceRefs → f.factRefs = citedRefs command "factRefs" →
      Writes command s lineage s'
  | recommendation (r : RecommendationRow) : command.commandType = .submitDecisionRecommendation →
      s' = { s with recommendations := s.recommendations ++ [r] } →
      lineage =
        r.findingRefs.map (lineageEdge .finding "SUPPORTS" .recommendation r.recommendationId) →
      r.findingRefs = citedRefs command "findingRefs" →
      r.evidenceRefs = citedRefs command "evidenceRefs" → Writes command s lineage s'
  | gateResult (g : GateResultRow) : command.commandType = .recordGateResult →
      s' = { s with gateResults := s.gateResults ++ [g] } →
      lineage =
        [lineageEdge .recommendation "EVALUATED_BY" .gateResult g.gateResultId g.recommendationRef] →
      (∃ r ∈ s.recommendations, r.recommendationId = g.recommendationRef) →
      Writes command s lineage s'
  | qaResult (r : ReviewRow) : command.commandType = .recordQAResult →
      s' = { s with reviews := s.reviews ++ [r] } → lineage = [] →
      r.reviewType = "SEMANTIC_QA" → r.reviewer = command.actor →
      (∃ recommendation ∈ s.recommendations, recommendation.recommendationId = r.objectRef ∧
        recommendation.createdBy.principalId ≠ command.actor.principalId) →
      Writes command s lineage s'
  | review (r : ReviewRow) : command.commandType = .recordReview →
      s' = { s with reviews := s.reviews ++ [r] } → lineage = [] →
      field command "reviewType" = some (.str r.reviewType) →
      field command "objectRef" = some (.str r.objectRef) → r.reviewer = command.actor →
      Writes command s lineage s'
  | disposition (d : DispositionRow) : command.commandType = .finalizeDisposition →
      s' = { s with dispositions := s.dispositions ++ [d] } →
      lineage = [lineageEdge .gateResult "AUTHORIZES" .disposition d.dispositionId d.gateResultRef] →
      (∃ g ∈ s.gateResults, g.gateResultId = d.gateResultRef) → Writes command s lineage s'
  | other : command.commandType ∈ [.addSubject, .linkEvidence, .recordAssumption,
        .raiseContradiction, .resolveContradiction, .proposeWorkItem, .completeWorkItem,
        .linkExecution, .requestHumanReview, .transitionCaseStatus] →
      SameRecords s s' → lineage = [] → Writes command s lineage s'

/-- Commands do not write evidence objects. -/
theorem Writes.evidenceObjects {command : BusinessCommand} {s s' : ObjectTables}
    {lineage : List LineageEdge} (h : Writes command s lineage s') :
    s'.evidenceObjects = s.evidenceObjects := by
  cases h with
  | other _ hsame => exact hsame.evidenceObjects
  | link _ _ heq | claim _ _ heq | fact _ _ heq | finding _ _ heq | recommendation _ _ heq
  | gateResult _ _ heq | qaResult _ _ heq | review _ _ heq | disposition _ _ heq => rw [heq]

/-! ## Payload checks -/

section

variable {command : BusinessCommand} {current : CaseRow} {env : Env} {s : ObjectTables}

theorem mapM_nonEmptyString? {items : List Json} {texts : List String}
    (h : items.mapM nonEmptyString? = some texts) : items.filterMap string? = texts := by
  induction items generalizing texts with
  | nil =>
    rw [List.mapM_nil] at h
    exact Option.some_inj.mp h
  | cons item items ih =>
    rw [List.mapM_cons] at h
    obtain ⟨text, hitem, h⟩ := Option.bind_eq_some_iff.mp h
    obtain ⟨rest, hrest, h⟩ := Option.bind_eq_some_iff.mp h
    obtain rfl := Option.some_inj.mp h
    rw [List.filterMap_cons, (Option.filter_eq_some_iff.mp hitem).1, ih hrest]

/-- The references that a handler reads are those of the payload. -/
theorem stringArray_givenRefs {key : String} {minimum : ℕ} {refs : List String}
    (h : stringArray ((nullish (field command key)).or (some (.arr []))) key minimum = .ok refs) :
    refs = citedRefs command key := by
  unfold citedRefs
  generalize field command key = value at h ⊢
  match value with
  | some (.arr items) =>
    simp only [nullish, Option.some_or, stringArray] at h
    split at h
    · next hitems =>
      split at h
      · rw [← Except.ok.inj h]
        exact (mapM_nonEmptyString? hitems).symm
      · cases h
    · cases h
  | none | some .null =>
    simp only [nullish, Option.none_or, stringArray, List.mapM_nil] at h
    change (if _ then Except.ok [] else _) = _ at h
    split at h
    · exact (Except.ok.inj h).symm
    · cases h
  | some (.bool _) | some (.num _) | some (.str _) | some (.obj _) =>
    simp [nullish, stringArray] at h

/-! ## The handlers -/

variable {sha256 : List Char → String} {evidenceRequireScan : Bool}

theorem linkEvidence_writes (htype : command.commandType = .linkEvidence) :
    (linkEvidence evidenceRequireScan command).wp
      (fun result s' _ => Writes command s result.lineage s') s := by
  simp only [linkEvidence, Txn.wp_bind, wp_check, Txn.wp_get, Txn.wp_getOrThrow, wp_demand,
    Txn.wp_modify]
  intro evidenceId _ o ho _ _ purpose _
  split
  · exact .other (by simp [htype]) ⟨rfl, rfl, rfl, rfl, rfl, rfl, rfl, rfl, rfl, rfl⟩ rfl
  · next hnew =>
    refine .link _ htype rfl rfl ?_ hnew
    exact ⟨o, List.mem_of_find?_eq_some ho, by simpa using List.find?_some ho⟩

theorem proposeClaim_writes (htype : command.commandType = .proposeClaim) :
    (proposeClaim command env).wp (fun result s' _ => Writes command s result.lineage s') s := by
  simp only [proposeClaim, Txn.wp_bind, wp_givenId, wp_givenRefs, wp_ensureLinkedEvidence, wp_check,
    Txn.wp_getOrThrow, wp_insertInto]
  intro _ _ evidenceRefs _ hlinked _ _ _ _ _ _ hnew
  exact .claim _ htype rfl rfl (by simpa [LinkedEvidence] using hlinked) hnew

theorem acceptClaimAsFact_writes (htype : command.commandType = .acceptClaimAsFact) :
    (acceptClaimAsFact command env).wp (fun result s' _ => Writes command s result.lineage s') s := by
  simp only [acceptClaimAsFact, Txn.wp_bind, wp_givenId, wp_check, Txn.wp_get, wp_demand,
    Txn.wp_getOrThrow, wp_insertInto, Txn.wp_modify]
  intro claimRefs _ hfound source _ _ _ _ _ _ _ _ _ _ _ _ _ _ _ _
  exact .fact ⟨_, _, _, _, claimRefs⟩ htype rfl rfl hfound

theorem recordScreeningFinding_writes (htype : command.commandType = .recordScreeningFinding) :
    (recordScreeningFinding command env).wp
      (fun result s' _ => Writes command s result.lineage s') s := by
  simp only [recordScreeningFinding, Txn.wp_bind, wp_givenId, wp_givenRefs, wp_ensureLinkedEvidence,
    wp_check, wp_demand, wp_insertInto]
  intro evidenceRefs _ factRefs hfacts _ hlinked _ _ _ _ _ _ _ _ _ _ _
  exact .finding _ htype rfl rfl (by simpa [LinkedEvidence] using hlinked)
    (stringArray_givenRefs hfacts)

theorem submitDecisionRecommendation_writes
    (htype : command.commandType = .submitDecisionRecommendation) :
    (submitDecisionRecommendation command current env).wp
      (fun result s' _ => Writes command s result.lineage s') s := by
  simp only [submitDecisionRecommendation, Txn.wp_bind, wp_givenId, wp_givenRefs, wp_check, wp_demand,
    wp_insertInto]
  intro _ _ findingRefs hfindings evidenceRefs hevidence _ _ _ _ _ _
  exact .recommendation _ htype rfl rfl (stringArray_givenRefs hfindings)
    (stringArray_givenRefs hevidence)

theorem recordGateResult_writes (htype : command.commandType = .recordGateResult) :
    (recordGateResult command current env).wp
      (fun result s' _ => Writes command s result.lineage s') s := by
  simp only [recordGateResult, Txn.wp_bind, wp_givenId, wp_check, Txn.wp_get, wp_demand,
    wp_insertInto]
  intro _ _ recommendationRef _ hfound _ _ _ _ _
  exact .gateResult _ htype rfl rfl hfound

theorem recordQAResult_writes (htype : command.commandType = .recordQAResult) :
    (recordQAResult command env).wp (fun result s' _ => Writes command s result.lineage s') s := by
  simp only [recordQAResult, Txn.wp_bind, wp_givenId, wp_givenRefs, wp_check, Txn.wp_get,
    Txn.wp_getOrThrow, wp_demand, wp_insertInto]
  intro _ _ recommendationRef _ recommendation hfind hduties _ _ _ _ _ _ _
  refine .qaResult _ htype rfl rfl rfl rfl
    ⟨recommendation, List.mem_of_find?_eq_some hfind, ?_, hduties⟩
  simpa using List.find?_some hfind

theorem recordReview_writes (htype : command.commandType = .recordReview) :
    (recordReview command env).wp (fun result s' _ => Writes command s result.lineage s') s := by
  simp only [recordReview, Txn.wp_bind, wp_givenId, wp_givenRefs, wp_check, wp_insertInto]
  intro _ _ reviewType hreviewType _ _ objectRef hobjectRef _ _ _ _ _
  exact .review _ htype rfl rfl (requiredString_ok hreviewType).1 (requiredString_ok hobjectRef).1
    rfl

theorem finalizeDisposition_writes (htype : command.commandType = .finalizeDisposition) :
    (finalizeDisposition command current env).wp
      (fun result s' _ => Writes command s result.lineage s') s := by
  simp only [finalizeDisposition, Txn.wp_bind, wp_givenId, wp_givenRefs, wp_check, Txn.wp_get,
    wp_demand, wp_insertInto]
  intro _ _ _ _ gateResultRef _ _ _ hgate _ _ _ _ _ _ _ _ _ _
  obtain ⟨g, hfind, -⟩ := (Option.any_eq_true _ _).mp hgate
  exact .disposition _ htype rfl rfl
    ⟨g, List.mem_of_find?_eq_some hfind, by simpa using List.find?_some hfind⟩

/-- **What an accepted command writes.** -/
theorem applyMutation_writes :
    (applyMutation sha256 evidenceRequireScan command current env).wp
      (fun result s' _ => Writes command s result.lineage s') s := by
  simp only [applyMutation, Txn.wp_bind, wp_check]
  intro _ _
  cases htype : command.commandType with
  | linkEvidence => exact linkEvidence_writes htype
  | proposeClaim => exact proposeClaim_writes htype
  | acceptClaimAsFact => exact acceptClaimAsFact_writes htype
  | recordScreeningFinding => exact recordScreeningFinding_writes htype
  | submitDecisionRecommendation => exact submitDecisionRecommendation_writes htype
  | recordGateResult => exact recordGateResult_writes htype
  | recordQAResult => exact recordQAResult_writes htype
  | recordReview => exact recordReview_writes htype
  | finalizeDisposition => exact finalizeDisposition_writes htype
  | addSubject =>
    simp only [addSubject, Txn.wp_bind, wp_givenId, wp_check, wp_insertInto]
    intros
    refine Txn.wp_mono (insertIdentifiers_wp _ 0) ?_
    rintro _ s' ms ⟨rfl, rows, rfl⟩
    exact .other (by simp [htype]) ⟨rfl, rfl, rfl, rfl, rfl, rfl, rfl, rfl, rfl, rfl⟩ rfl
  | linkExecution =>
    simp only [linkExecution, Txn.wp_bind, wp_check, Txn.wp_modify]
    intros
    split <;> exact .other (by simp [htype]) ⟨rfl, rfl, rfl, rfl, rfl, rfl, rfl, rfl, rfl, rfl⟩ rfl
  | _ =>
    simp only [recordAssumption, raiseContradiction, resolveContradiction, proposeWorkItem,
      completeWorkItem, requestHumanReview, transitionCaseStatus, Txn.wp_bind, wp_givenId,
      wp_givenRefs, wp_check, Txn.wp_get, wp_demand, Txn.wp_require, wp_insertInto, Txn.wp_modify]
    intros
    exact .other (by simp [htype]) ⟨rfl, rfl, rfl, rfl, rfl, rfl, rfl, rfl, rfl, rfl⟩ rfl

/-! ## Calls -/

/-- The row stores the edge. -/
structure LineageEdge.StoredAs (edge : LineageEdge) (row : LineageEdgeRow) : Prop where
  sourceType : row.sourceType = edge.sourceType
  sourceId : row.sourceId = edge.sourceId
  predicate : row.predicate = edge.predicate
  targetType : row.targetType = edge.targetType
  targetId : row.targetId = edge.targetId

/-- What a call that returns writes: an accepted command its row and its lineage, any other call at
most evidence objects. -/
inductive CallWrites : Call → CaseTables → Answer → CaseTables → List OutboxRow → Prop
  | accepted (env command t response t' ms lineage objects rows) :
      Writes command t.objects lineage objects →
      t'.objects = { objects with lineageEdges := objects.lineageEdges ++ rows } →
      (∀ row ∈ rows, ∃ edge ∈ lineage, edge.StoredAs row) →
      CallWrites (.submitBusinessCommand env command) t (.response response false) t' ms
  | other (call t answer t' ms rows) : (∀ response, answer ≠ .response response false) →
      t'.objects = { t.objects with evidenceObjects := t.objects.evidenceObjects ++ rows } →
      CallWrites call t answer t' ms

theorem insertLineage_rows {eventId : String} (edges : List LineageEdge) (i : ℕ) :
    (insertLineage env eventId edges i).wp (fun _ s' _ => ∃ rows,
      s' = { s with lineageEdges := s.lineageEdges ++ rows } ∧
      ∀ row ∈ rows, ∃ edge ∈ edges, edge.StoredAs row) s := by
  induction edges generalizing i s with
  | nil => exact ⟨[], by rw [List.append_nil], List.forall_mem_nil _⟩
  | cons edge edges ih =>
    simp only [insertLineage, Txn.wp_bind, wp_insertInto]
    intro _
    refine Txn.wp_mono (ih (i + 1)) ?_
    rintro _ s' _ ⟨rows, rfl, hrows⟩
    refine ⟨_ :: rows, by rw [List.append_assoc, List.singleton_append], ?_⟩
    intro row hrow
    rcases List.mem_cons.mp hrow with rfl | hrow
    · exact ⟨edge, List.mem_cons_self, rfl, rfl, rfl, rfl, rfl⟩
    · obtain ⟨edge', hedge, hstored⟩ := hrows row hrow
      exact ⟨edge', List.mem_cons_of_mem _ hedge, hstored⟩

theorem acceptCommand_written {t : CaseTables} {requestDigest : String} :
    (acceptCommand sha256 env evidenceRequireScan command requestDigest current).wp
      (fun answer t' ms => CallWrites (.submitBusinessCommand env command) t answer t' ms) t := by
  simp only [acceptCommand, Txn.wp_bind, Txn.wp_require, Txn.wp_mapThrow, Txn.wp_get, wp_column,
    Txn.wp_modify]
  intro _ _ _
  refine wp_onObjects (Txn.wp_mono applyMutation_writes ?_)
  rintro mutation objects _ hwrites
  refine Txn.wp_mono appendCaseEvent_wp ?_
  rintro ref _ _ ⟨r, -, rfl, rfl, rfl⟩
  refine wp_onObjects (Txn.wp_mono (insertLineage_rows _ 0) ?_)
  rintro _ _ _ ⟨rows, rfl, hrows⟩ updatedAt _
  refine Txn.wp_mono writeReceipt_wp ?_
  rintro _ _ _ ⟨receipt, rfl, rfl, -, -, -, -⟩
  exact .accepted _ _ _ _ _ _ _ objects rows hwrites rfl hrows

/-- **What a call writes.** -/
theorem call_written (sha256 : List Char → String) (evidenceRequireScan : Bool)
    (P : CaseTables → Prop) (call : Call) :
    ((caseService sha256 evidenceRequireScan).txn call).underLock P (CallWrites call) := by
  cases call with
  | createKycCase env request idempotencyKey =>
    refine Txn.underLock_mono (call_underLock sha256 evidenceRequireScan P
      (.createKycCase env request idempotencyKey)) ?_
    rintro t answer t' ms he
    cases he with
    | existing => exact .other _ _ _ _ _ [] (by simp) (by rw [List.append_nil])
    | created _ _ _ _ _ _ _ _ hc =>
      exact .other _ _ _ _ _ [] (by simp) (by rw [hc.objects, List.append_nil])
  | registerEvidence key evidenceId =>
    simp only [caseService, Call.txn, registerEvidence, Txn.underLock_require_bind,
      Txn.underLock_get_bind, Txn.underLock_lockKey_bind, Txn.wp_bind]
    intro _ _ _ t
    refine wp_onObjects ?_
    rw [wp_insertInto]
    intro _
    exact .other _ _ _ _ _ _ (by simp) rfl
  | submitBusinessCommand env command =>
    simp only [caseService, Call.txn, submitBusinessCommand, Txn.underLock_require_bind,
      Txn.underLock_mapThrow, Txn.underLock_lockKey_bind, Txn.underLock_get_bind, Txn.wp_bind,
      Txn.wp_get, Txn.wp_getOrThrow]
    intro _ _ _ t current _
    split
    · simp only [Txn.wp_bind, Txn.wp_require, Txn.wp_pure]
      intro _
      exact .other _ _ _ _ _ [] (by simp) (by rw [List.append_nil])
    · exact acceptCommand_written

/-! ## Histories -/

/-- A history, by what its calls wrote. -/
abbrev WrittenHistory : List CaseEntry → CaseTables → Prop := History CallWrites .empty

/-- The object tables satisfy `P` before every call and now. -/
def Throughout (P : ObjectTables → Prop) (es : List CaseEntry) (t : CaseTables) : Prop :=
  (∀ entry ∈ es, P entry.before.objects) ∧ P t.objects

/-- The commands accepted satisfied `C` when they were. -/
def AcceptedOnly (C : BusinessCommand → ObjectTables → Prop) (es : List CaseEntry) : Prop :=
  ∀ entry ∈ es, ∀ command, Accepted entry command → C command entry.before.objects

theorem throughout_concat {P : ObjectTables → Prop} {es : List CaseEntry} {entry : CaseEntry}
    {t : CaseTables} : Throughout P (es ++ [entry]) t ↔ Throughout P es entry.before ∧ P t.objects := by
  rw [Throughout, List.forall_mem_append, List.forall_mem_singleton, Throughout]

theorem acceptedOnly_concat {C : BusinessCommand → ObjectTables → Prop} {es : List CaseEntry}
    {entry : CaseEntry} : AcceptedOnly C (es ++ [entry]) ↔
      AcceptedOnly C es ∧ ∀ command, Accepted entry command → C command entry.before.objects := by
  rw [AcceptedOnly, List.forall_mem_append, List.forall_mem_singleton, AcceptedOnly]

/-- **The rule for a property that some commands keep.** If, under an invariant, a command keeps `P`
exactly if it satisfies `C`, then a history satisfies `P` throughout exactly if its commands satisfy
`C`. -/
theorem WrittenHistory.throughout_iff {I P : ObjectTables → Prop}
    {C : BusinessCommand → ObjectTables → Prop} (hempty : I .empty ∧ P .empty)
    (hregister : ∀ s rows, I s → I { s with evidenceObjects := s.evidenceObjects ++ rows } ∧
      (P s → P { s with evidenceObjects := s.evidenceObjects ++ rows }))
    (haccept : ∀ command s lineage objects rows, I s → Writes command s lineage objects →
      (∀ row ∈ rows, ∃ edge ∈ lineage, edge.StoredAs row) →
      I { objects with lineageEdges := objects.lineageEdges ++ rows } ∧
      (P s → (P { objects with lineageEdges := objects.lineageEdges ++ rows } ↔ C command s)))
    {es : List CaseEntry} {t : CaseTables} (h : WrittenHistory es t) :
    I t.objects ∧ (Throughout P es t ↔ AcceptedOnly C es) := by
  induction h with
  | nil =>
    exact ⟨hempty.1, fun _ => List.forall_mem_nil _, fun _ => ⟨List.forall_mem_nil _, hempty.2⟩⟩
  | throws call e _ ih =>
    refine ⟨ih.1, ?_⟩
    rw [throughout_concat, acceptedOnly_concat, ih.2]
    refine ⟨fun ⟨h, _⟩ => ⟨h, fun command hc => absurd hc.2 (by simp)⟩, fun ⟨h, _⟩ => ⟨h, ?_⟩⟩
    exact (ih.2.mpr h).2
  | returns call answer t' ms _ hwritten ih =>
    rw [throughout_concat, acceptedOnly_concat, ih.2]
    cases hwritten with
    | other call t answer t' ms rows hanswer hobjects =>
      obtain ⟨hinv, hkeep⟩ := hregister _ rows ih.1
      rw [hobjects]
      refine ⟨hinv, fun ⟨h, _⟩ => ⟨h, ?_⟩, fun ⟨h, _⟩ => ⟨h, hkeep (ih.2.mpr h).2⟩⟩
      rintro command ⟨-, response, hresult⟩
      exact absurd (Except.ok.inj hresult) (hanswer response)
    | accepted env command t response t' ms lineage objects rows hwrites hobjects hrows =>
      obtain ⟨hinv, hkeep⟩ := haccept command _ lineage objects rows ih.1 hwrites hrows
      rw [hobjects]
      refine ⟨hinv, and_congr_right fun h => (hkeep (ih.2.mpr h).2).trans ?_⟩
      refine ⟨?_, fun hall => hall command ⟨⟨env, rfl⟩, response, rfl⟩⟩
      rintro hc command' ⟨⟨env', hcall⟩, -⟩
      obtain ⟨-, rfl⟩ := Call.submitBusinessCommand.inj hcall
      exact hc

end

end CaseStore

end HarnessFramework
