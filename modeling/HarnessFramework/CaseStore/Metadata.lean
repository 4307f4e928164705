import HarnessFramework.CaseStore.Addressing

/-!
# Reading evidence

`getEvidence` of `packages/case-store/src/index.ts` joins evidence with its artifact. Artifacts are shared
by all evidence of a tenant with the same content, and an artifact that is there is not written again, so
the media type that is read is the one of the first registration of the content.

## Main definitions

* `getEvidence` — evidence with the media type and the length of its artifact
* `firstRegistration` — the first registration of a content in a tenant

## Main results

* `getEvidence_eq_first` — what is read of evidence that was registered
* `metadata_returned_iff` — when it is what was registered
-/

namespace HarnessFramework

namespace CaseStore

namespace Evidence

/-- What `getEvidence` selects: evidence, and two columns of its artifact. -/
structure EvidenceView where
  evidence : EvidenceRow
  mediaType : String
  byteLength : ℕ

/-- The rows of the join in `getEvidence`. -/
def joinedRows (rows : List Row) (tenantId evidenceId : String) : List EvidenceView :=
  rows.flatMap fun
    | .evidence e =>
      if e.tenantId = tenantId ∧ e.evidenceId = evidenceId then
        rows.filterMap fun
          | .artifact a =>
            if a.tenantId = e.tenantId ∧ a.artifactRef = e.artifactRef then
              some ⟨e, a.mediaType, a.byteLength⟩
            else none
          | _ => none
      else []
    | _ => []

/-- `getEvidence`. -/
def getEvidence (rows : List Row) (tenantId evidenceId : String) : Option EvidenceView :=
  (joinedRows rows tenantId evidenceId).head?

/-- The request of a registration of the content in the tenant. -/
def registration? (tenantId : String) (content : List UInt8) :
    Entry Call (List Row) Failure Answer → Option RegisterEvidenceRequest
  | ⟨.registerEvidence _ request _, .ok (.registered true _), _, _⟩ =>
    if request.tenantId.val = tenantId ∧ decodeBase64 request.contentBase64 = content then some request
    else none
  | _ => none

/-- The first registration of the content in the tenant. -/
def firstRegistration (log : List (Entry Call (List Row) Failure Answer)) (tenantId : String)
    (content : List UInt8) : Option RegisterEvidenceRequest :=
  log.findSome? (registration? tenantId content)

section

variable {sha256 : List Char → String} {contentSha256 : List UInt8 → String} {hashtext : String → ℤ}
  {evidenceMaxBytes : ℕ} {rows : List Row}

/-! ## The join -/

theorem mem_joinedRows {tenantId evidenceId : String} {view : EvidenceView} :
    view ∈ joinedRows rows tenantId evidenceId ↔ ∃ e a, .evidence e ∈ rows ∧ .artifact a ∈ rows ∧
      e.tenantId = tenantId ∧ e.evidenceId = evidenceId ∧ a.tenantId = e.tenantId ∧
      a.artifactRef = e.artifactRef ∧ view = ⟨e, a.mediaType, a.byteLength⟩ := by
  rw [joinedRows, List.mem_flatMap]
  constructor
  · rintro ⟨row, hrow, hview⟩
    cases row with
    | evidence e =>
      simp only [List.mem_ite_nil_right, List.mem_filterMap] at hview
      obtain ⟨⟨htenant, hid⟩, row', hrow', hview⟩ := hview
      cases row' with
      | artifact a =>
        obtain ⟨⟨htenant', href⟩, hview⟩ := Option.ite_none_right_eq_some.mp hview
        exact ⟨e, a, hrow, hrow', htenant, hid, htenant', href, (Option.some_inj.mp hview).symm⟩
      | case | evidence | receipt | outbox | purged => cases hview
    | case | artifact | receipt | outbox | purged => cases hview
  · rintro ⟨e, a, he, ha, htenant, hid, htenant', href, rfl⟩
    refine ⟨_, he, ?_⟩
    simp only [List.mem_ite_nil_right, List.mem_filterMap]
    exact ⟨⟨htenant, hid⟩, _, ha, if_pos ⟨htenant', href⟩⟩

/-- **Evidence is read with its artifact.** -/
theorem Kept.getEvidence_eq (h : Kept sha256 contentSha256 evidenceMaxBytes rows) {e : EvidenceRow}
    {a : ArtifactRow} (he : .evidence e ∈ rows) (ha : .artifact a ∈ rows) (htenant : a.tenantId = e.tenantId)
    (href : a.artifactRef = e.artifactRef) :
    getEvidence rows e.tenantId e.evidenceId = some ⟨e, a.mediaType, a.byteLength⟩ := by
  have hone : ∀ view ∈ joinedRows rows e.tenantId e.evidenceId, view = ⟨e, a.mediaType, a.byteLength⟩ := by
    intro view hview
    obtain ⟨e', a', he', ha', htenant', hid', -, href', rfl⟩ := mem_joinedRows.mp hview
    have hsame : e' = e := Row.evidence.inj <| h.unclashed.eq_of_clash he' he
      (by simp [uniqueKeys, Row.clash, htenant', hid'])
    have hsame' : a' = a := Row.artifact.inj <| h.unclashed.eq_of_clash ha' ha
      (by simp [uniqueKeys, Row.clash, href', href, hsame])
    rw [hsame, hsame']
  have hmem := mem_joinedRows.mpr ⟨e, a, he, ha, rfl, rfl, htenant, href, rfl⟩
  rw [getEvidence]
  cases hjoined : joinedRows rows e.tenantId e.evidenceId with
  | nil =>
    rw [hjoined] at hmem
    cases hmem
  | cons view views => rw [List.head?_cons, hone view (hjoined ▸ List.mem_cons_self)]

/-! ## Registrations -/

variable {e : Entry Call (List Row) Failure Answer} {env : Env} {request : RegisterEvidenceRequest}
  {idempotencyKey : String} {evidence : Option Json}

/-- A registration inserted its evidence, and the artifact unless that was there. -/
theorem registered_of_meets (h : (contract sha256 contentSha256 hashtext evidenceMaxBytes).Meets e)
    (hcall : e.call = .registerEvidence env request idempotencyKey)
    (hresult : e.result = .ok (.registered true evidence)) :
    ∃ stored, Stores sha256 contentSha256 request e.before stored ∧
      e.after = e.before ++ (stored ++ [.evidence (evidenceRow sha256 contentSha256 env request),
        .receipt (receiptRow sha256 contentSha256 env request idempotencyKey),
        .outbox (outboxRow sha256 contentSha256 env request)]) := by
  obtain ⟨-, hmeets⟩ := h
  rw [hresult, hcall] at hmeets
  obtain ⟨own, hafter, hregistered⟩ := hmeets
  cases hregistered with
  | created stored _ _ _ hstores => exact ⟨stored, hstores, hafter⟩

/-- An artifact that a call inserted is the one of a registration of its content. -/
theorem registration?_of_inserted (h : (contract sha256 contentSha256 hashtext evidenceMaxBytes).Meets e)
    {artifact : ArtifactRow} (hinserted : Inserters.Inserted e (.artifact artifact)) :
    ∃ request, registration? artifact.tenantId artifact.content e = some request ∧
      artifact = artifactRow sha256 contentSha256 request := by
  obtain ⟨own, hafter, hmem⟩ := hinserted
  obtain ⟨call, result, before, after⟩ := e
  obtain ⟨-, hmeets⟩ := h
  cases result with
  | error failure =>
    obtain rfl : own = [] := List.append_right_eq_self.mp (hafter.symm.trans hmeets.1)
    cases hmem
  | ok answer =>
    obtain ⟨own', hafter', hreturns⟩ := hmeets
    obtain rfl : own = own' := List.append_cancel_left (hafter.symm.trans hafter')
    cases call with
    | createCase tenantId caseId =>
      obtain ⟨-, rfl⟩ := hreturns
      cases List.mem_singleton.mp hmem
    | registerEvidence env request idempotencyKey =>
      cases hreturns with
      | replayed => cases hmem
      | created stored _ _ _ hstores =>
        have hmem' : .artifact artifact ∈ stored := by simpa using hmem
        obtain rfl := Row.artifact.inj (hstores.mem hmem')
        exact ⟨request, if_pos ⟨rfl, rfl⟩, rfl⟩

theorem registration?_eq_some {tenantId : String} {content : List UInt8}
    (h : registration? tenantId content e = some request) : ∃ env idempotencyKey evidence,
      e.call = .registerEvidence env request idempotencyKey ∧
        e.result = .ok (.registered true evidence) ∧ request.tenantId.val = tenantId ∧
        decodeBase64 request.contentBase64 = content := by
  unfold registration? at h
  split at h
  · next env request' idempotencyKey evidence before after =>
    obtain ⟨hsame, hrequest⟩ := Option.ite_none_right_eq_some.mp h
    obtain rfl := Option.some_inj.mp hrequest
    exact ⟨env, idempotencyKey, evidence, rfl, rfl, hsame⟩
  · cases h

variable {ι : Type} [DecidableEq ι] {s : Inserters ι ℤ Call Row Failure Answer}

/-- **What is read of evidence that was registered**: the media type of the first registration of its
content in the tenant, and the length of the content. -/
theorem getEvidence_eq_first (hsha : Function.Injective sha256)
    (hcontent : Function.Injective contentSha256)
    (h : Inserters.Reachable (Call.txn sha256 contentSha256 hashtext evidenceMaxBytes) uniqueKeys Relayed
      s) (he : e ∈ s.log) (hcall : e.call = .registerEvidence env request idempotencyKey)
    (hresult : e.result = .ok (.registered true evidence)) :
    ∃ first, firstRegistration s.log request.tenantId (decodeBase64 request.contentBase64) = some first ∧
      getEvidence s.rows request.tenantId (evidenceId env) =
        some ⟨evidenceRow sha256 contentSha256 env request, first.mediaType,
          (decodeBase64 request.contentBase64).length⟩ := by
  have hvalid : (contract sha256 contentSha256 hashtext evidenceMaxBytes).Valid uniqueKeys
    (Call.txn sha256 contentSha256 hashtext evidenceMaxBytes) Relayed := contract_valid hsha
  have hsound := h.sound hvalid
  have hkept : Kept sha256 contentSha256 evidenceMaxBytes s.rows := hsound.invariant
  have htraced : Inserters.Traced (fun row => ∃ a, row = Row.artifact a) s :=
    h.traced fun row row' hrelayed hartifact => by
      obtain ⟨a, rfl⟩ := hartifact
      cases hrelayed
  have hstays : ∀ e' ∈ s.log, ∀ row ∈ e'.after, row.Fixed → row ∈ s.rows :=
    fun e' he' row hrow hfixed => (hsound.later e' he').stays row hrow hfixed
  -- The evidence has its artifact.
  obtain ⟨stored, -, hafter⟩ := registered_of_meets (hsound.meets e he) hcall hresult
  have hevidence : .evidence (evidenceRow sha256 contentSha256 env request) ∈ s.rows :=
    hstays e he _ (by rw [hafter]; simp) trivial
  obtain ⟨href, artifact, hartifact, htenant, hdigest⟩ := hkept.stored _ hevidence
  obtain ⟨hcontent', hlength, href'⟩ := hkept.artifacts artifact hartifact
  have hbytes : artifact.content = decodeBase64 request.contentBase64 :=
    hcontent (hcontent'.trans hdigest)
  have hread := hkept.getEvidence_eq hevidence hartifact htenant
    (by rw [href', href, htenant, hdigest])
  -- The artifact is the one of the first registration.
  obtain ⟨e', he', hinserted⟩ := htraced.rows _ hartifact ⟨artifact, rfl⟩
  obtain ⟨request', hsome, -⟩ := registration?_of_inserted (hsound.meets e' he') hinserted
  rw [htenant, hbytes] at hsome
  cases hfirst : firstRegistration s.log request.tenantId (decodeBase64 request.contentBase64) with
  | none =>
    have hnone := List.findSome?_eq_none_iff.mp hfirst e' he'
    exact absurd (hsome.symm.trans hnone) nofun
  | some first =>
    obtain ⟨earlier, e₁, later, hlog, hsome₁, hbefore⟩ := List.findSome?_eq_some_iff.mp hfirst
    obtain ⟨env₁, key₁, evidence₁, hcall₁, hresult₁, htenant₁, hbytes₁⟩ := registration?_eq_some hsome₁
    have he₁ : e₁ ∈ s.log := hlog ▸ List.mem_append_right _ List.mem_cons_self
    have hunique : ∀ a, .artifact a ∈ s.rows → a.tenantId = request.tenantId.val →
        a.artifactDigest = contentDigest contentSha256 request → a = artifact := by
      intro a ha htenant' hdigest'
      refine Row.artifact.inj (hkept.unclashed.eq_of_clash ha hartifact ?_)
      simp only [uniqueKeys, Row.clash, decide_eq_true_eq]
      exact .inl ⟨htenant'.trans htenant.symm, hdigest'.trans hdigest.symm⟩
    have hsame : contentDigest contentSha256 first = contentDigest contentSha256 request := by
      rw [contentDigest, contentDigest, hbytes₁]
    have hinserted₁ : artifact = artifactRow sha256 contentSha256 first := by
      obtain ⟨stored₁, hstores₁, hafter₁⟩ := registered_of_meets (hsound.meets e₁ he₁) hcall₁ hresult₁
      rcases hstores₁ with ⟨-, a, ha, htenant', hdigest'⟩ | rfl
      · -- What was there before the first registration was registered earlier.
        obtain ⟨e₂, he₂, hinserted₂⟩ := htraced.before earlier e₁ later hlog _ ha ⟨a, rfl⟩
        have he₂' : e₂ ∈ s.log := hlog ▸ List.mem_append_left _ he₂
        obtain ⟨request₂, hsome₂, -⟩ := registration?_of_inserted (hsound.meets e₂ he₂') hinserted₂
        have ha' : a = artifact := by
          refine hunique a ?_ (htenant'.trans htenant₁) (hdigest'.trans hsame)
          exact hstays e₁ he₁ _ (by rw [hafter₁]; exact List.mem_append_left _ ha) trivial
        rw [ha', htenant, hbytes] at hsome₂
        exact absurd (hsome₂.symm.trans (hbefore e₂ he₂)) nofun
      · refine (hunique _ (hstays e₁ he₁ _ ?_ trivial) htenant₁ hsame).symm
        rw [hafter₁]
        simp
    refine ⟨first, rfl, ?_⟩
    rw [hlength, hbytes, hinserted₁] at hread
    exact hread

theorem twoBytes_ne_empty : "AAE=" ≠ "" := by decide

theorem textPlain_ne_empty : "text/plain" ≠ "" := by decide

/-- A registration of two bytes with a media type. -/
def typedRequest (mediaType : NonEmpty) : RegisterEvidenceRequest :=
  { sampleRequest ⟨"AAE=", twoBytes_ne_empty⟩ with mediaType }

def typedEnv (tag : String) : Env := ⟨sampleNow, sampleNow, fun _ _ => tag, 0⟩

def textCall : Call := .registerEvidence (typedEnv "1") (typedRequest ⟨"text/plain", textPlain_ne_empty⟩) "text"

def imageCall : Call := .registerEvidence (typedEnv "2") (typedRequest ⟨"image/png", by decide⟩) "image"

/-- The state after a case is created and the same bytes are registered as a text and as an image. -/
def typedState : Inserters Unit ℤ Call Row Failure Answer :=
  Inserters.serve (Call.txn String.ofList sampleHash (fun _ => 0) 2) uniqueKeys
    [.createCase "t" "c", textCall, imageCall] [] []

theorem reachable_typedState : Inserters.Reachable
    (Call.txn String.ofList sampleHash (fun _ => 0) 2) uniqueKeys Relayed typedState :=
  Inserters.reachable_serve _ .start

/-- Evidence was registered. -/
def isRegistered : Entry Call (List Row) Failure Answer → Bool
  | ⟨_, .ok (.registered true _), _, _⟩ => true
  | _ => false

theorem result_of_isRegistered {e : Entry Call (List Row) Failure Answer} (h : isRegistered e = true) :
    ∃ evidence, e.result = .ok (.registered true evidence) := by
  unfold isRegistered at h
  split at h
  · exact ⟨_, rfl⟩
  · cases h

/-- Both registrations are accepted. -/
theorem log_typedState : (∃ e ∈ typedState.log, e.call = textCall ∧ isRegistered e = true) ∧
    ∃ e ∈ typedState.log, e.call = imageCall ∧ isRegistered e = true := by
  have hcalls : typedState.log.map Entry.call = [.createCase "t" "c", textCall, imageCall] :=
    Inserters.serve_calls _
  have hresults : typedState.log.map isRegistered = [false, true, true] := by decide +kernel
  obtain ⟨e₁, log, hlog, -, hcalls⟩ := List.map_eq_cons_iff.mp hcalls
  obtain ⟨e₂, log, rfl, hcall₂, hcalls⟩ := List.map_eq_cons_iff.mp hcalls
  obtain ⟨e₃, rfl, hcall₃⟩ := List.map_eq_singleton_iff.mp hcalls
  rw [hlog] at hresults ⊢
  simp only [List.map_cons, List.map_nil, List.cons.injEq, and_true] at hresults
  exact ⟨⟨e₂, by simp, hcall₂, hresults.2.1⟩, e₃, by simp, hcall₃, hresults.2.2⟩

theorem sampleHash_injective : Function.Injective sampleHash := by
  have hbyte : Function.Injective fun b : UInt8 => Char.ofNat (b.toNat + 97) := by
    intro b b' h
    have htoNat : ∀ c : UInt8, (Char.ofNat (c.toNat + 97)).toNat = c.toNat + 97 := by
      intro c
      have hc := c.toNat_lt
      have hvalid : (c.toNat + 97).isValidChar := .inl (by omega)
      rw [Char.ofNat, dif_pos hvalid]
      rfl
    have heq := congrArg Char.toNat h
    rw [htoNat, htoNat] at heq
    exact UInt8.toNat_inj.mp (by omega)
  exact fun bytes bytes' h => hbyte.list_map (String.ofList_injective h)

/-- **Evidence is read as it was registered** exactly when the first registration of its content in the
tenant had the same media type. -/
theorem metadata_returned_iff (hsha : Function.Injective sha256)
    (hcontent : Function.Injective contentSha256)
    (h : Inserters.Reachable (Call.txn sha256 contentSha256 hashtext evidenceMaxBytes) uniqueKeys Relayed
      s) (he : e ∈ s.log) (hcall : e.call = .registerEvidence env request idempotencyKey)
    (hresult : e.result = .ok (.registered true evidence)) :
    (∃ view, getEvidence s.rows request.tenantId (evidenceId env) = some view ∧
        view.mediaType = request.mediaType.val ∧
        view.byteLength = (decodeBase64 request.contentBase64).length) ↔
      ∃ first, firstRegistration s.log request.tenantId (decodeBase64 request.contentBase64) = some first ∧
        first.mediaType = request.mediaType := by
  obtain ⟨first, hfirst, hread⟩ := getEvidence_eq_first hsha hcontent h he hcall hresult
  rw [hfirst, hread]
  constructor
  · rintro ⟨view, hview, hmedia, -⟩
    obtain rfl := Option.some_inj.mp hview
    exact ⟨first, rfl, Subtype.ext hmedia⟩
  · rintro ⟨first', hfirst', hmedia⟩
    obtain rfl := Option.some_inj.mp hfirst'
    exact ⟨_, rfl, congrArg Subtype.val hmedia, rfl⟩

/-- The first registration. -/
theorem metadata_returned_iff_sample :
    (∃ view, getEvidence typedState.rows "t" "ev_1" = some view ∧ view.mediaType = "text/plain" ∧
        view.byteLength = (decodeBase64 "AAE=").length) ↔
      ∃ first, firstRegistration typedState.log "t" (decodeBase64 "AAE=") = some first ∧
        first.mediaType = ⟨"text/plain", by decide⟩ := by
  obtain ⟨⟨e, he, hcall, hregistered⟩, -⟩ := log_typedState
  obtain ⟨evidence, hresult⟩ := result_of_isRegistered hregistered
  exact metadata_returned_iff (fun _ _ => String.ofList_injective) sampleHash_injective
    reachable_typedState he hcall hresult

/-- The second registration, of an image, is read as a text. -/
theorem metadata_returned_fails :
    Inserters.Reachable (Call.txn String.ofList sampleHash (fun _ => 0) 2) uniqueKeys Relayed typedState ∧
      (∃ e ∈ typedState.log, e.call = imageCall ∧ isRegistered e = true) ∧
      ¬ ∃ view, getEvidence typedState.rows "t" "ev_2" = some view ∧ view.mediaType = "image/png" := by
  refine ⟨reachable_typedState, log_typedState.2, ?_⟩
  rintro ⟨view, hview, hmedia⟩
  have hread : (getEvidence typedState.rows "t" "ev_2").map (·.mediaType) = some "text/plain" := by
    decide +kernel
  rw [hview, Option.map_some, hmedia] at hread
  exact absurd hread (by decide)

end

end Evidence

end CaseStore

end HarnessFramework
